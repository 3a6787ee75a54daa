/-
# `MethodSkeleton.Proofs.Signature.Failure` — where reading fails

A part of a signature is read from the left, one token after the other, and is given up at one of
them.  A reader is `Prompt` if that is always the right one: what is in front of the token can be
completed to something that is read, so it is not given up too early, and nothing that begins with
the token as well is read, so it is not given up too late.  An error then shows the token's place,
and if it names a token, that one.

Readers are put together by `andThen`, and so is promptness (`Prompt.andThen`): behind a part that
has been read, the next one fails where it fails alone, and a part that cannot be completed alone
cannot be completed by the next.  For the second half a part has to be over where its own tokens
are; that is what `Accepts` says, and what `accept_ok_iff` and its like prove of each part.
-/
import MethodSkeleton.Proofs.Signature.Acceptance

namespace MethodSkeleton

/-! ## Causes -/

/-- The token that a cause names as the one it found. -/
def ParseCause.found? : ParseCause → Option Token
  | missingFunc found | receiverNotFound found | receiverNotClosed found
  | missingMethodName found | parametersNotOpened found | unexpectedInParameters found
  | resultsNotOpened found | unexpectedToken _ found => some found
  | incompleteType _ _ | unterminated _ => none

/-- A message closes with the token that was found. -/
theorem ParseCause.message_of_found? {cause : ParseCause} {t : Token}
    (h : cause.found? = some t) : ∃ words, cause.message = words ++ t.describe := by
  cases cause <;> cases h <;> exact ⟨_, rfl⟩

/-! ## Readers -/

/-- Tokens can be put somewhere. -/
theorem exists_located (us : List Token) : ∃ ts : Tokens, SplitsAs ts us [] := by
  refine ⟨us.map (⟨Span.at 0, ·⟩), _, ?_, (List.append_nil _).symm⟩
  rw [List.map_map]
  exact List.map_id us

/-- A part of the grammar: it answers what it has read and what follows, and where the tokens are
over it meets the end of input at the given position. -/
abbrev Reader (α : Type) := Nat → Tokens → Except ParseError (α × Tokens)

namespace Reader

variable {α β : Type}

/-- Reads nothing. -/
def done (a : α) : Reader α := fun _ ts => .ok (a, ts)

/-- Reads one part and then another, which may depend on what the first has read. -/
def andThen (R : Reader α) (S : α → Reader β) : Reader β :=
  fun stop ts => R stop ts >>= fun read => S read.1 stop read.2

/-- The tokens `us` are read as `a`, whatever follows. -/
def Reads (R : Reader α) (us : List Token) (a : α) : Prop :=
  ∀ stop ts rest, SplitsAs ts us rest → R stop ts = .ok (a, rest)

/-- Nothing that begins with the tokens `us` is read. -/
def Refuses (R : Reader α) (us : List Token) : Prop :=
  ∀ stop ts rest read, SplitsAs ts us rest → R stop ts ≠ .ok read

/-- What is read is said by the tokens alone, and by none that follow. -/
def Accepts (R : Reader α) (L : List Token → α → Prop) : Prop :=
  ∀ stop ts rest a, R stop ts = .ok (a, rest) ↔ ∃ us, L us a ∧ SplitsAs ts us rest

variable {R R' : Reader α} {S : α → Reader β} {L : List Token → α → Prop}
variable {us vs : List Token} {a : α} {b : β}

theorem Accepts.reads (h : R.Accepts L) (hus : L us a) : R.Reads us a :=
  fun stop ts rest hs => (h stop ts rest a).mpr ⟨us, hus, hs⟩

theorem reads_done (a : α) : (done a).Reads [] a := by
  intro stop ts rest hs
  rw [splitsAs_nil_iff.mp hs, done]

theorem Reads.andThen (hR : R.Reads us a) (hS : (S a).Reads vs b) :
    (R.andThen S).Reads (us ++ vs) b := by
  intro stop ts rest hs
  obtain ⟨mid, hus, hvs⟩ := splitsAs_append_iff.mp hs
  rw [Reader.andThen, hR stop ts mid hus]
  exact hS stop mid rest hvs

theorem Refuses.andThen (hR : R.Refuses us) : (R.andThen S).Refuses us := by
  intro stop ts rest read hs h
  obtain ⟨first, hfirst, _⟩ := bind_ok_iff.mp h
  exact hR stop ts rest first hs hfirst

theorem Reads.refuses_andThen (hR : R.Reads us a) (hS : (S a).Refuses vs) :
    (R.andThen S).Refuses (us ++ vs) := by
  intro stop ts rest read hs h
  obtain ⟨mid, hus, hvs⟩ := splitsAs_append_iff.mp hs
  rw [Reader.andThen, hR stop ts mid hus] at h
  exact hS stop mid rest read hvs h

/-! ## Failing at a token -/

/-- Where slots stand: `At context read front` says that the tokens `front` end in the tokens `read`
of a slot that is being read. -/
abbrev SlotPlaces := SlotContext → List Token → List Token → Prop

/-- The same places behind other tokens. -/
def SlotPlaces.behind (us : List Token) (At : SlotPlaces) : SlotPlaces :=
  fun context read front => At context read (us ++ front)

/-- The reader fails with `e` at the first token of `rest`, in front of which it has taken the
tokens `front`; past the last token, that is the end of input. -/
structure FailsAt (R : Reader α) (At : SlotPlaces) (stop : Nat) (ts : Tokens) (e : ParseError)
    (front : List Token) (rest : Tokens) : Prop where
  splits : SplitsAs ts front rest
  span : e.span = (nextToken stop rest).1.span
  found : ∀ t, e.cause.found? = some t → t = (nextToken stop rest).1.value
  incomplete : ∀ context read, e.cause = .incompleteType context read → At context read front
  viable : ∃ more a, R.Reads (front ++ more) a
  refused : R.Refuses (front ++ [(nextToken stop rest).1.value])

/-- Some tokens are read, and every failure is at the first token with which none go on. -/
structure Prompt (At : SlotPlaces) (R : Reader α) : Prop where
  completes : ∃ us a, R.Reads us a
  fails : ∀ stop ts e, R stop ts = .error e → ∃ front rest, R.FailsAt At stop ts e front rest

section
variable {At Bt : SlotPlaces} {stop : Nat} {t : Located Token} {ts mid rest : Tokens}
variable {e : ParseError} {front : List Token} {u : Token}

theorem FailsAt.mono (h : R.FailsAt At stop ts e front rest)
    (hAt : ∀ context read, At context read front → Bt context read front) :
    R.FailsAt Bt stop ts e front rest :=
  { h with incomplete := fun context read hc => hAt context read (h.incomplete context read hc) }

theorem Prompt.mono (h : R.Prompt At)
    (hAt : ∀ context read front, At context read front → Bt context read front) :
    R.Prompt Bt where
  completes := h.completes
  fails := by
    intro stop ts e he
    obtain ⟨front, rest, hfails⟩ := h.fails stop ts e he
    exact ⟨front, rest, hfails.mono fun context read => hAt context read front⟩

/-- A reader that leaves all but its first token to another fails where the other does. -/
theorem FailsAt.cons (h : R'.FailsAt (At.behind [u]) stop ts e front rest) (ht : t.value = u)
    (hR : ∀ stop (t : Located Token) ts, t.value = u → R stop (t :: ts) = R' stop ts) :
    R.FailsAt At stop (t :: ts) e (u :: front) rest where
  splits := splitsAs_cons_cons_iff.mpr ⟨ht, h.splits⟩
  span := h.span
  found := h.found
  incomplete := h.incomplete
  viable := by
    obtain ⟨more, a, hreads⟩ := h.viable
    refine ⟨more, a, fun stop ts rest hs => ?_⟩
    obtain ⟨t, mid, rfl, ht, hmid⟩ := splitsAs_cons_iff.mp hs
    rw [hR stop t mid ht]
    exact hreads stop mid rest hmid
  refused := by
    intro stop ts rest read hs
    obtain ⟨t, mid, rfl, ht, hmid⟩ := splitsAs_cons_iff.mp hs
    rw [hR stop t mid ht]
    exact h.refused stop mid rest read hmid

/-- The first part fails, so both fail. -/
theorem FailsAt.andThen (h : R.FailsAt At stop ts e front rest)
    (hS : ∀ us a, R.Reads us a → ∃ vs b, (S a).Reads vs b) :
    (R.andThen S).FailsAt At stop ts e front rest where
  splits := h.splits
  span := h.span
  found := h.found
  incomplete := h.incomplete
  viable := by
    obtain ⟨more, a, hreads⟩ := h.viable
    obtain ⟨vs, b, hvs⟩ := hS _ a hreads
    exact ⟨more ++ vs, b, by rw [← List.append_assoc]; exact hreads.andThen hvs⟩
  refused := h.refused.andThen

/-- The second part fails behind the first. -/
theorem FailsAt.behind (h : (S a).FailsAt (At.behind us) stop mid e front rest)
    (hs : SplitsAs ts us mid) (hR : R.Reads us a) :
    (R.andThen S).FailsAt At stop ts e (us ++ front) rest where
  splits := splitsAs_append_iff.mpr ⟨mid, hs, h.splits⟩
  span := h.span
  found := h.found
  incomplete := h.incomplete
  viable := by
    obtain ⟨more, b, hreads⟩ := h.viable
    exact ⟨more, b, by rw [List.append_assoc]; exact hR.andThen hreads⟩
  refused := by
    rw [List.append_assoc]
    exact hR.refuses_andThen h.refused

/-- What is made of the outcome makes no difference to where reading fails. -/
theorem Prompt.map (h : R.Prompt At) (f : α → β) : (R.andThen fun a => done (f a)).Prompt At where
  completes := by
    obtain ⟨us, a, hus⟩ := h.completes
    exact ⟨us ++ [], f a, hus.andThen (reads_done (f a))⟩
  fails := by
    intro stop ts e he
    cases hR : R stop ts with
    | ok read =>
        rw [Reader.andThen, hR] at he
        cases he
    | error e' =>
        rw [Reader.andThen, hR] at he
        cases he
        obtain ⟨front, rest, hfails⟩ := h.fails stop ts e hR
        exact ⟨front, rest, hfails.andThen fun _ a _ => ⟨[], f a, reads_done (f a)⟩⟩

/-- Tokens that are read belong to the language. -/
theorem Accepts.of_reads (h : R.Accepts L) (hus : R.Reads us a) : L us a := by
  obtain ⟨front, hfront⟩ := exists_located us
  obtain ⟨vs, hvs, g, rfl, hg⟩ := (h 0 front [] a).mp (hus 0 front [] hfront)
  obtain ⟨f, rfl, hf⟩ := hfront
  simp only [List.append_nil] at hf hg
  rwa [← hf, hg]

/-- Two prompt parts are prompt one behind the other, if the first ends by itself. -/
theorem Prompt.andThen (hA : R.Accepts L) (hR : R.Prompt At)
    (hS : ∀ us a, L us a → (S a).Prompt (At.behind us)) : (R.andThen S).Prompt At where
  completes := by
    obtain ⟨us, a, hus⟩ := hR.completes
    obtain ⟨vs, b, hvs⟩ := (hS us a (hA.of_reads hus)).completes
    exact ⟨us ++ vs, b, hus.andThen hvs⟩
  fails := by
    intro stop ts e he
    cases hfirst : R stop ts with
    | error e' =>
        rw [Reader.andThen, hfirst] at he
        cases he
        obtain ⟨front, rest, hfails⟩ := hR.fails stop ts e hfirst
        exact ⟨front, rest, hfails.andThen fun us a hus => (hS us a (hA.of_reads hus)).completes⟩
    | ok read =>
        obtain ⟨a, mid⟩ := read
        rw [Reader.andThen, hfirst] at he
        obtain ⟨us, hus, hs⟩ := (hA stop ts mid a).mp hfirst
        obtain ⟨front, rest, hfails⟩ := (hS us a hus).fails stop mid e he
        exact ⟨us ++ front, rest, hfails.behind hs (hA.reads hus)⟩

end

/-! ## Single tokens -/

section
variable {At : SlotPlaces}

/-- The next token, if `pick` knows it. -/
def token (pick : Token → Option α) (otherwise : Token → ParseCause) : Reader α :=
  fun stop ts => accept stop pick otherwise ts

theorem accepts_token {pick : Token → Option α} {otherwise : Token → ParseCause}
    (h : pick .endOfInput = none) :
    (token pick otherwise).Accepts fun us a => ∃ t, pick t = some a ∧ us = [t] := by
  intro stop ts rest a
  rw [token, accept_ok_iff h]
  constructor
  · rintro ⟨t, ht, hs⟩
    exact ⟨[t], ⟨t, ht, rfl⟩, hs⟩
  · rintro ⟨_, ⟨t, ht, rfl⟩, hs⟩
    exact ⟨t, ht, hs⟩

theorem accepts_only {u : Token} {otherwise : Token → ParseCause} (hu : u ≠ .endOfInput) :
    (token (Token.only u) otherwise).Accepts fun us _ => us = [u] := by
  intro stop ts rest x
  rw [token, accept_only_ok_iff hu, exists_eq_left]

theorem accepts_name {otherwise : Token → ParseCause} :
    (token Token.name? otherwise).Accepts fun us x => us = [.identifier x] := by
  intro stop ts rest x
  rw [token, accept_name_ok_iff, exists_eq_left]

/-- A token that is not known is refused at once, if some token is and the complaint names the one
found. -/
theorem failsAt_token {pick : Token → Option α} {otherwise : Token → ParseCause} {t : Token} {a : α}
    {stop : Nat} {ts : Tokens} {e : ParseError} (hend : pick .endOfInput = none)
    (hpick : pick t = some a) (hfound : ∀ u, (otherwise u).found? = some u)
    (h : token pick otherwise stop ts = .error e) :
    (token pick otherwise).FailsAt At stop ts e [] ts := by
  cases hnext : pick (nextToken stop ts).1.value with
  | some b => simp [token, accept, hnext] at h
  | none =>
      have he : e = ⟨otherwise (nextToken stop ts).1.value, (nextToken stop ts).1.span⟩ := by
        simpa [token, accept, hnext, eq_comm] using h
      subst he
      refine ⟨splitsAs_nil_iff.mpr rfl, rfl, ?_, ?_, ?_, ?_⟩
      · intro u hu
        rw [hfound] at hu
        exact (Option.some.inj hu).symm
      · intro context read (hc : otherwise _ = _)
        have hnone := hfound (nextToken stop ts).1.value
        rw [hc] at hnone
        cases hnone
      · exact ⟨[t], a, (accepts_token hend).reads ⟨t, hpick, rfl⟩⟩
      · intro stop' ts' rest read hs hok
        obtain ⟨b, rest'⟩ := read
        obtain ⟨us, ⟨u, hu, rfl⟩, hs'⟩ := (accepts_token hend stop' ts' rest' b).mp hok
        obtain ⟨v, mid, rfl, hv, -⟩ := splitsAs_cons_iff.mp hs
        rw [← (splitsAs_cons_cons_iff.mp hs').1, hv, hnext] at hu
        cases hu

theorem prompt_token {pick : Token → Option α} {otherwise : Token → ParseCause} {t : Token} {a : α}
    (hend : pick .endOfInput = none) (hpick : pick t = some a)
    (hfound : ∀ u, (otherwise u).found? = some u) : (token pick otherwise).Prompt At where
  completes := ⟨[t], a, (accepts_token hend).reads ⟨t, hpick, rfl⟩⟩
  fails := fun _ ts _ h => ⟨[], ts, failsAt_token hend hpick hfound h⟩

theorem failsAt_name {otherwise : Token → ParseCause} {stop : Nat} {ts : Tokens} {e : ParseError}
    (hfound : ∀ t, (otherwise t).found? = some t)
    (h : token Token.name? otherwise stop ts = .error e) :
    (token Token.name? otherwise).FailsAt At stop ts e [] ts :=
  failsAt_token (t := .identifier "x") rfl rfl hfound h

theorem prompt_only {u : Token} {otherwise : Token → ParseCause} (hu : u ≠ .endOfInput)
    (hfound : ∀ t, (otherwise t).found? = some t) :
    (token (Token.only u) otherwise).Prompt At :=
  prompt_token (if_neg hu.symm) (if_pos rfl) hfound

theorem prompt_name {otherwise : Token → ParseCause}
    (hfound : ∀ t, (otherwise t).found? = some t) : (token Token.name? otherwise).Prompt At :=
  prompt_token rfl (t := .identifier "x") rfl hfound

end

end Reader

end MethodSkeleton
