/-
# `MethodSkeleton.Proofs.Signature.Promptness` — the parts of a signature are prompt

Every reader of the grammar gives up at the right token (`Reader.Prompt`).

A slot does because each of its states can be completed: behind a name it may end, and in front of
one any name will do (`slotFrom_completes`); and whether a token carries a slot on or ends it does
not hang on where the token stands.  The two lists go by the recursion of their readers, which is
said again as a slot and, if a comma ends it, the list once more (`readParameterSlots_cons`,
`readResultSlots_eq`).  The receiver is a row of single tokens, with one in it that may have a star
in front.
-/
import MethodSkeleton.Proofs.Signature.Failure

namespace MethodSkeleton

/-- `(ITEM ,)*`. -/
inductive CommaEnded (Item : List Token → Prop) : List Token → Prop
  | nil : CommaEnded Item []
  | cons {item ts : List Token} : Item item → CommaEnded Item ts →
      CommaEnded Item (item ++ .comma :: ts)

namespace Reader

/-! ## Slots -/

/-- The rest of a slot of which the tokens `read` have been read. -/
def slotFrom (context : SlotContext) (state : SlotState) (read : List Token) : Reader Slot :=
  fun stop ts => readSlot context stop state read ts

/-- A whole slot. -/
def slot (context : SlotContext) : Reader Slot := slotFrom context .opening []

section
variable {context : SlotContext} {state : SlotState} {read : List Token} {stop : Nat} {ts : Tokens}
variable {t u : Located Token} {e : ParseError}

/-- Every state can be completed: behind a name the slot may end, and elsewhere a name may come. -/
theorem slotFrom_completes (context : SlotContext) (state : SlotState) (read : List Token) :
    ∃ us a, (slotFrom context state read).Reads us a := by
  obtain ⟨close, hclose⟩ : ∃ close, context.terminator? close = some false := by
    cases context with
    | parameter => exact ⟨.rightParen, rfl⟩
    | resultList => exact ⟨.rightParen, rfl⟩
    | resultType => exact ⟨.leftBrace, rfl⟩
  have hreads : ∀ us, state.Takes context false read us →
      (slotFrom context state read).Reads (us ++ [close]) ⟨read ++ us, false⟩ :=
    fun us htakes stop ts rest hs =>
      readSlot_ok_iff.mpr ⟨us, rfl, .inl ⟨close, hclose, hs⟩, htakes⟩
  cases state with
  | named => exact ⟨_, _, hreads [] (.inl (.inl rfl))⟩
  | opening => exact ⟨_, _, hreads [.identifier "x"] (.inl (.inl (.name "x")))⟩

/-- The error of a slot that is closed badly. -/
theorem closeSlot_error (h : closeSlot context state read t = .error e) :
    e.span = t.span ∧ (∀ u, e.cause.found? = some u → u = t.value) ∧
      ∀ c r, e.cause = .incompleteType c r → c = context ∧ r = read := by
  rw [closeSlot] at h
  split at h
  · split at h
    · cases h
    split at h
    · cases h
      simp [ParseCause.found?]
    split at h
    · cases h
      simp [ParseCause.found?]
    · cases h
  · split at h
    · cases h
      simp [ParseCause.found?]
    · cases h
      simp [ParseCause.found?]

/-- How a slot is closed hangs on what the token is and not on where it stands. -/
theorem closeSlot_ok_congr {slot : Slot} (h : u.value = t.value) :
    closeSlot context state read u = .ok slot ↔ closeSlot context state read t = .ok slot := by
  rw [closeSlot_ok_iff, closeSlot_ok_iff, h]

/-- A comma does not carry a slot on. -/
theorem shift?_comma (fresh : Bool) : state.shift? context fresh .comma = none := by
  cases state <;> rfl

/-- A token that does not carry the slot on closes it. -/
theorem readSlot_of_close
    (h : state.shift? context read.isEmpty (nextToken stop ts).1.value = none) :
    readSlot context stop state read ts =
      (closeSlot context state read (nextToken stop ts).1).map (·, (nextToken stop ts).2) := by
  cases ts with
  | nil => rfl
  | cons t ts =>
      have ht : state.shift? context read.isEmpty t.value = none := h
      simp [readSlot, nextToken, ht]

/-- The slot of which the tokens `read` have been read: what is read of it behind them holds no
comma. -/
def slotPlaces (context : SlotContext) (read : List Token) : SlotPlaces := fun c r front =>
  c = context ∧ r = read ++ front ∧ .comma ∉ front

theorem failsAt_close (h : readSlot context stop state read ts = .error e)
    (hshift : state.shift? context read.isEmpty (nextToken stop ts).1.value = none) :
    (slotFrom context state read).FailsAt (slotPlaces context read) stop ts e [] ts := by
  have hclose : closeSlot context state read (nextToken stop ts).1 = .error e := by
    rw [readSlot_of_close hshift] at h
    cases hc : closeSlot context state read (nextToken stop ts).1 with
    | ok slot => simp [hc, Except.map] at h
    | error e' => simpa [hc, Except.map] using h
  obtain ⟨hspan, hfound, hincomplete⟩ := closeSlot_error hclose
  refine ⟨splitsAs_nil_iff.mpr rfl, hspan, hfound, fun c r hc => ?_,
    slotFrom_completes context state read, ?_⟩
  · obtain ⟨hcontext, hread⟩ := hincomplete c r hc
    exact ⟨hcontext, hread.trans (List.append_nil _).symm, List.not_mem_nil⟩
  · intro stop' ts' rest' read' hs hok
    obtain ⟨u, mid, rfl, hu, -⟩ := splitsAs_cons_iff.mp hs
    have hok := ((readSlot_of_shift?_eq_none (by rw [hu]; exact hshift)).mp hok).1
    rw [closeSlot_ok_congr hu, hclose] at hok
    cases hok

/-- **Slots are prompt.** -/
theorem prompt_slotFrom (context : SlotContext) (state : SlotState) (read : List Token) :
    (slotFrom context state read).Prompt (slotPlaces context read) where
  completes := slotFrom_completes context state read
  fails := by
    intro stop ts e h
    induction ts generalizing state read with
    | nil => exact ⟨[], [], failsAt_close h (by cases state <;> rfl)⟩
    | cons t ts ih =>
        cases hshift : state.shift? context read.isEmpty t.value with
        | none => exact ⟨[], t :: ts, failsAt_close h hshift⟩
        | some next =>
            rw [slotFrom, readSlot_of_shift? hshift] at h
            obtain ⟨front, rest, hfails⟩ := ih next (read ++ [t.value]) h
            refine ⟨t.value :: front, rest, .cons (hfails.mono ?_) rfl ?_⟩
            · rintro c r ⟨rfl, rfl, hcomma⟩
              have ht : .comma ≠ t.value := fun ht => by
                rw [← ht, shift?_comma] at hshift
                cases hshift
              exact ⟨rfl, List.append_assoc .., List.not_mem_cons_of_ne_of_not_mem ht hcomma⟩
            · intro stop' u ts' hu
              rw [slotFrom, readSlot_of_shift? (by rw [hu]; exact hshift), hu]
              rfl

theorem prompt_slot (context : SlotContext) :
    (slot context).Prompt (slotPlaces context []) :=
  prompt_slotFrom context .opening []

end

theorem accepts_parameterSlot (x : String) : (slot .parameter).Accepts fun us a =>
    IsParameterSlot (.identifier x :: a.tokens) ∧
      us = a.tokens ++ [if a.more then .comma else .rightParen] := by
  intro stop ts rest a
  rw [slot, slotFrom, readSlot_parameter_ok_iff x]
  constructor
  · rintro ⟨hitem, hs⟩
    exact ⟨_, ⟨hitem, rfl⟩, hs⟩
  · rintro ⟨_, ⟨hitem, rfl⟩, hs⟩
    exact ⟨hitem, hs⟩

theorem accepts_resultSlot : (slot .resultList).Accepts fun us a =>
    (IsType .resultList a.tokens ∨ (a.tokens = [] ∧ a.more = false)) ∧
      us = a.tokens ++ [if a.more then .comma else .rightParen] := by
  intro stop ts rest a
  rw [slot, slotFrom, readSlot_resultList_ok_iff]
  constructor
  · rintro ⟨hitem, hs⟩
    exact ⟨_, ⟨hitem, rfl⟩, hs⟩
  · rintro ⟨_, ⟨hitem, rfl⟩, hs⟩
    exact ⟨hitem, hs⟩

/-! ## Lists of slots -/

section
variable {β : Type} {L : Reader (List β)} {f : Slot → β} {a : Slot} {At : SlotPlaces}
variable {stop : Nat} {ts rest : Tokens} {e : ParseError} {front : List Token}

/-- Behind a slot, the list `L` if more is to follow. -/
def slotsBehind (L : Reader (List β)) (f : Slot → β) (a : Slot) : Reader (List β) :=
  if a.more then L.andThen fun bs => done (f a :: bs) else done [f a]

theorem slotsBehind_eq : slotsBehind L f a stop ts =
    if a.more then (L stop ts).map fun (bs, rest) => (f a :: bs, rest) else .ok ([f a], ts) := by
  rw [slotsBehind]
  cases a.more with
  | false => rfl
  | true =>
      simp only [if_true, andThen]
      cases L stop ts <;> rfl

theorem slotsBehind_completes {us : List Token} {bs : List β} (hL : L.Reads us bs) (f : Slot → β)
    (a : Slot) : ∃ us bs, (slotsBehind L f a).Reads us bs := by
  rw [slotsBehind]
  split
  · exact ⟨_, _, hL.andThen (reads_done _)⟩
  · exact ⟨_, _, reads_done _⟩

theorem FailsAt.slotsBehind (h : L.FailsAt At stop ts e front rest) (f : Slot → β)
    (hm : a.more = true) : (slotsBehind L f a).FailsAt At stop ts e front rest := by
  rw [Reader.slotsBehind, if_pos hm]
  exact h.andThen fun _ _ _ => ⟨_, _, reads_done _⟩

end

/-! ## Parameters -/

section
variable {stop : Nat} {t : Located Token} {ts : Tokens} {e : ParseError} {x : String} {a : Slot}

/-- Behind the slot of the name `x`, the other parameters. -/
def parametersBehind (x : String) : Slot → Reader (List ParameterSlot) :=
  slotsBehind readParameterSlots fun a => .ofSlot x a.tokens

theorem readParameterSlots_cons (ht : t.value = .identifier x) :
    readParameterSlots stop (t :: ts) = (slot .parameter).andThen (parametersBehind x) stop ts := by
  rw [andThen, slot, slotFrom]
  cases hslot : readSlot .parameter stop .opening [] ts with
  | error e =>
      rw [readParameterSlots]
      simp only [ht]
      split
      · rename_i h
        rw [hslot] at h
        cases h
        rfl
      · rename_i h
        rw [hslot] at h
        cases h
  | ok read =>
      obtain ⟨a, mid⟩ := read
      rw [readParameterSlots_identifier ht hslot]
      show _ = parametersBehind x a stop mid
      rw [parametersBehind, slotsBehind_eq]

theorem reads_noParameters : Reader.Reads readParameterSlots [.rightParen] [] :=
  fun _ _ _ hs => readParameterSlots_of_commaList .nil hs

/-- A parameter begins with a name. -/
theorem first_of_readParameterSlots {read : List ParameterSlot × Tokens}
    (h : readParameterSlots stop (t :: ts) = .ok read) :
    t.value = .rightParen ∨ ∃ x, t.value = .identifier x := by
  rw [readParameterSlots] at h
  split at h
  · rename_i ht
    exact .inl ht
  · rename_i x ht
    exact .inr ⟨x, ht⟩
  · cases h
  · cases h

/-- The slots of a parameter list: behind parameters that are over, and the next one's name. -/
def parameterPlaces : SlotPlaces := fun context read front =>
  context = .parameter ∧ .comma ∉ read ∧ ∃ slots y, CommaEnded IsParameterSlot slots ∧
    front = slots ++ .identifier y :: read

theorem failsAt_noParameter (hspan : e.span = (nextToken stop ts).1.span)
    (hfound : ∀ u, e.cause.found? = some u → u = (nextToken stop ts).1.value)
    (hincomplete : ∀ c r, e.cause ≠ .incompleteType c r)
    (hclose : (nextToken stop ts).1.value ≠ .rightParen)
    (hname : ∀ x, (nextToken stop ts).1.value ≠ .identifier x) :
    Reader.FailsAt readParameterSlots parameterPlaces stop ts e [] ts where
  splits := splitsAs_nil_iff.mpr rfl
  span := hspan
  found := hfound
  incomplete := fun c r hc => absurd hc (hincomplete c r)
  viable := ⟨_, _, reads_noParameters⟩
  refused := by
    intro stop' ts' rest read hs hok
    obtain ⟨u, mid, rfl, hu, -⟩ := splitsAs_cons_iff.mp hs
    rcases first_of_readParameterSlots hok with h | ⟨x, h⟩
    · exact hclose (hu.symm.trans h)
    · exact hname x (hu.symm.trans h)

/-- Behind its name, a parameter fails where its slot does or what follows it. -/
theorem failsAt_parameter {front : List Token} {rest : Tokens} (ht : t.value = .identifier x)
    (h : ((slot .parameter).andThen (parametersBehind x)).FailsAt
      (parameterPlaces.behind [.identifier x]) stop ts e front rest) :
    Reader.FailsAt readParameterSlots parameterPlaces stop (t :: ts) e (.identifier x :: front)
      rest :=
  h.cons ht fun _ _ _ ht => readParameterSlots_cons ht

theorem prompt_readParameterSlots : Reader.Prompt parameterPlaces readParameterSlots where
  completes := ⟨_, _, reads_noParameters⟩
  fails := by
    intro stop ts e h
    fun_induction readParameterSlots stop ts with
    | case1 =>
        cases h
        exact ⟨[], [], failsAt_noParameter rfl (by simp [ParseCause.found?]) (by simp)
          (by simp [nextToken, endAt]) (by simp [nextToken, endAt])⟩
    | case2 => cases h
    | case3 t ts x ht _ hslot =>
        cases h
        obtain ⟨front, rest, hfails⟩ := (prompt_slot .parameter).fails stop ts _ hslot
        refine ⟨_, rest, failsAt_parameter ht (.andThen (hfails.mono ?_) fun _ a _ =>
          slotsBehind_completes reads_noParameters _ a)⟩
        rintro c r ⟨rfl, rfl, hcomma⟩
        exact ⟨rfl, hcomma, [], x, .nil, rfl⟩
    | case4 t ts x ht a mid hslot parameter hm ih =>
        obtain ⟨us, hus, hs⟩ := (accepts_parameterSlot x stop ts mid a).mp hslot
        obtain ⟨front, rest, hfails⟩ := ih (map_error_iff.mp h)
        have hbehind : (parametersBehind x a).FailsAt parameterPlaces stop mid e front rest :=
          hfails.slotsBehind _ hm
        have hreads := (accepts_parameterSlot x).reads hus
        refine ⟨_, rest, failsAt_parameter ht (.behind (hbehind.mono ?_) hs hreads)⟩
        rintro c r ⟨rfl, hcomma, slots, y, hslots, rfl⟩
        obtain ⟨hitem, rfl⟩ := hus
        refine ⟨rfl, hcomma, _, y, .cons hitem hslots, ?_⟩
        simp [hm]
    | case5 => cases h
    | case6 t ts ht =>
        cases h
        exact ⟨[], t :: ts, failsAt_noParameter rfl (by simp [ParseCause.found?]) (by simp)
          (by simp [nextToken, ht]) (by simp [nextToken, ht])⟩
    | case7 t ts hclose hname hend =>
        cases h
        exact ⟨[], t :: ts, failsAt_noParameter rfl (by simp [ParseCause.found?, nextToken])
          (by simp) hclose hname⟩

end

/-! ## Results -/

section
variable {stop : Nat} {ts : Tokens} {e : ParseError}

/-- Behind the slot of a result, the other results. -/
def resultsBehind : Slot → Reader (List Slot) := slotsBehind readResultSlots id

theorem readResultSlots_eq : readResultSlots = (slot .resultList).andThen resultsBehind := by
  funext stop ts
  rw [andThen, slot, slotFrom]
  cases hslot : readSlot .resultList stop .opening [] ts with
  | error e =>
      rw [readResultSlots]
      split
      · rename_i h
        rw [hslot] at h
        cases h
        rfl
      · rename_i h
        rw [hslot] at h
        cases h
  | ok read =>
      obtain ⟨a, mid⟩ := read
      rw [readResultSlots_of_read hslot]
      show _ = resultsBehind a stop mid
      rw [resultsBehind, slotsBehind_eq]
      rfl

theorem reads_noResults : Reader.Reads readResultSlots [.rightParen] [⟨[], false⟩] := by
  intro stop ts rest hs
  have hread : readSlot .resultList stop .opening [] ts = .ok (⟨[], false⟩, rest) :=
    readSlot_resultList_ok_iff.mpr ⟨.inr ⟨rfl, rfl⟩, hs⟩
  exact readResultSlots_of_read hread

/-- The slots of a result list: behind results that are over. -/
def resultPlaces : SlotPlaces := fun context read front =>
  context = .resultList ∧ .comma ∉ read ∧ ∃ slots, CommaEnded (IsType .resultList) slots ∧ front = slots ++ read

theorem prompt_readResultSlots : Reader.Prompt resultPlaces readResultSlots where
  completes := ⟨_, _, reads_noResults⟩
  fails := by
    intro stop ts e h
    fun_induction readResultSlots stop ts with
    | case1 ts _ hslot =>
        cases h
        obtain ⟨front, rest, hfails⟩ := (prompt_slot .resultList).fails stop ts _ hslot
        refine ⟨front, rest, ?_⟩
        rw [readResultSlots_eq]
        refine .andThen (hfails.mono ?_) fun _ a _ =>
          slotsBehind_completes reads_noResults _ a
        rintro c r ⟨rfl, rfl, hcomma⟩
        exact ⟨rfl, hcomma, [], .nil, rfl⟩
    | case2 ts a mid hslot hm ih =>
        obtain ⟨us, hus, hs⟩ := (accepts_resultSlot stop ts mid a).mp hslot
        obtain ⟨front, rest, hfails⟩ := ih (map_error_iff.mp h)
        have hbehind : (resultsBehind a).FailsAt resultPlaces stop mid e front rest :=
          hfails.slotsBehind _ hm
        have hreads := accepts_resultSlot.reads hus
        refine ⟨us ++ front, rest, ?_⟩
        rw [readResultSlots_eq]
        refine .behind (hbehind.mono ?_) hs hreads
        rintro c r ⟨rfl, hcomma, slots, hslots, rfl⟩
        obtain ⟨hitem, rfl⟩ := hus
        have htype : IsType .resultList a.tokens := hitem.resolve_right fun he => by simp [hm] at he
        refine ⟨rfl, hcomma, _, .cons htype hslots, ?_⟩
        simp [hm]
    | case3 => cases h

end

/-! ## Receiver -/

section
variable {At : SlotPlaces}

/-- A name, with or without a star in front. -/
def starredName : Reader String :=
  fun stop ts => token Token.name? .receiverNotFound stop (skipStar ts)

theorem accepts_starredName : starredName.Accepts fun us x =>
    ∃ star, (star = [] ∨ star = [.star]) ∧ us = star ++ [.identifier x] := by
  intro stop ts rest x
  rw [starredName, token, accept_name_ok_iff, skipStar_splitsAs_iff]
  constructor
  · rintro ⟨star, hstar, hs⟩
    exact ⟨_, ⟨star, hstar, rfl⟩, hs⟩
  · rintro ⟨_, ⟨star, hstar, rfl⟩, hs⟩
    exact ⟨star, hstar, hs⟩

theorem starredName_star (stop : Nat) (t : Located Token) (ts : Tokens) (h : t.value = .star) :
    starredName stop (t :: ts) = token Token.name? .receiverNotFound stop ts := by
  obtain ⟨span, value⟩ := t
  cases h
  rfl

theorem starredName_of_ne {stop : Nat} {ts : Tokens} (h : (nextToken stop ts).1.value ≠ .star) :
    starredName stop ts = token Token.name? .receiverNotFound stop ts := by
  cases ts with
  | nil => rfl
  | cons t ts =>
      have ht : t.value ≠ .star := h
      rw [starredName, skipStar_of_ne ht]

theorem prompt_starredName : starredName.Prompt At where
  completes := ⟨_, "x", accepts_starredName.reads ⟨[], .inl rfl, rfl⟩⟩
  fails := by
    intro stop ts e h
    by_cases hstar : (nextToken stop ts).1.value = .star
    · cases ts with
      | nil => cases hstar
      | cons t ts =>
          rw [starredName_star stop t ts hstar] at h
          exact ⟨[.star], ts, (failsAt_name (fun _ => rfl) h).cons hstar starredName_star⟩
    · rw [starredName_of_ne hstar] at h
      have hfails := @failsAt_name At _ _ _ _ (fun _ => rfl) h
      refine ⟨[], ts, { hfails with viable := ?_, refused := ?_ }⟩
      · exact ⟨_, "x", accepts_starredName.reads ⟨[], .inl rfl, rfl⟩⟩
      · intro stop' ts' rest read hs
        obtain ⟨u, mid, rfl, hu, -⟩ := splitsAs_cons_iff.mp hs
        have hne : (nextToken stop' (u :: mid)).1.value ≠ .star := by
          rw [nextToken, hu]
          exact hstar
        rw [starredName_of_ne hne]
        exact hfails.refused stop' _ rest read hs

theorem readReceiver_eq : readReceiver =
    (token (Token.only .func) .missingFunc).andThen fun _ =>
    (token (Token.only .leftParen) .receiverNotFound).andThen fun _ =>
    (token Token.name? .receiverNotFound).andThen fun _ =>
    starredName.andThen fun receiver =>
    (token (Token.only .rightParen) .receiverNotClosed).andThen fun _ => done receiver := rfl

theorem accepts_readReceiver : Reader.Accepts readReceiver fun us receiver =>
    ∃ x star, (star = [] ∨ star = [.star]) ∧
      us = .func :: .leftParen :: .identifier x :: star ++ [.identifier receiver, .rightParen] := by
  intro stop ts rest receiver
  rw [readReceiver_ok_iff]
  constructor
  · rintro ⟨x, star, hstar, hs⟩
    exact ⟨_, ⟨x, star, hstar, rfl⟩, hs⟩
  · rintro ⟨_, ⟨x, star, hstar, rfl⟩, hs⟩
    exact ⟨x, star, hstar, hs⟩

theorem prompt_readReceiver : Reader.Prompt At readReceiver := by
  rw [readReceiver_eq]
  refine .andThen (accepts_only (by simp)) (prompt_only (by simp) fun _ => rfl) fun _ _ _ => ?_
  refine .andThen (accepts_only (by simp)) (prompt_only (by simp) fun _ => rfl) fun _ _ _ => ?_
  refine .andThen accepts_name (prompt_name fun _ => rfl) fun _ _ _ => ?_
  refine .andThen accepts_starredName prompt_starredName fun _ receiver _ => ?_
  exact (prompt_only (by simp) fun _ => rfl).map fun _ => receiver

end

end Reader

end MethodSkeleton
