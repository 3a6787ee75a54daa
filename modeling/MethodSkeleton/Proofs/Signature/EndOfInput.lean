/-
# `MethodSkeleton.Proofs.Signature.EndOfInput` — reading stops at the first end of input

Past the last token a reader is given the end of input, and again as often as it asks, so nothing but
the readers themselves keeps them from going on for ever, or past an end of input that stands among
the tokens.  None of them goes on: what a shape of a signature makes of a list is settled by the
tokens it draws, and behind an end of input it draws nothing (`shapes_stop_at_end`).  Hence an end of
input may be added behind a list, and anything behind that, and nothing changes.

Every reader of the grammar draws one token after the other (`Reader.draw`), and after each it either
concludes or is the reader of what comes then; `token_eq`, `slotFrom_eq` and their like say each of
them so.  There are two rules: a reader stops if it concludes with the end of input and stops after
every other token (`Stops.draw`), and a reader behind another stops if the other takes no end of input
where it succeeds (`Stops.andThen`).  The loops go by induction over the tokens.
-/
import MethodSkeleton.Proofs.Signature.ViablePrefix

namespace MethodSkeleton

/-! ## Drawing tokens -/

/-- The tokens `drawn` are drawn from `ts`, one after the other, and `rest` is left; past the last
token the end of input is drawn, at `stop`, as often as need be. -/
def Draws (stop : Nat) : Tokens → Tokens → Tokens → Prop
  | ts, [], rest => ts = rest
  | ts, t :: drawn, rest =>
    (nextToken stop ts).1 = t ∧ Draws stop (nextToken stop ts).2 drawn rest

/-- Behind an end of input nothing is drawn. -/
def StopsDrawing (drawn : Tokens) : Prop := drawn.Pairwise fun t _ => t.value ≠ .endOfInput

section
variable {stop : Nat} {ts drawn us rest : Tokens}

theorem draws_append_iff : Draws stop ts (drawn ++ us) rest ↔
    ∃ mid, Draws stop ts drawn mid ∧ Draws stop mid us rest := by
  induction drawn generalizing ts with
  | nil => simp [Draws]
  | cons t drawn ih => simp [Draws, ih, and_assoc]

/-- What stands in front is drawn first. -/
theorem draws_append (stop : Nat) (drawn rest : Tokens) :
    Draws stop (drawn ++ rest) drawn rest := by
  induction drawn with
  | nil => rfl
  | cons t drawn ih => exact ⟨rfl, ih⟩

/-- Where nothing is drawn behind an end of input, at most one is drawn past the last token. -/
theorem Draws.isPrefix (h : Draws stop ts drawn rest) (hstops : StopsDrawing drawn) :
    drawn <+: ts ++ [endAt stop] := by
  induction drawn generalizing ts with
  | nil => exact List.nil_prefix
  | cons t drawn ih =>
      obtain ⟨rfl, hrest⟩ := h
      obtain ⟨hfirst, hstops'⟩ := List.pairwise_cons.mp hstops
      cases ts with
      | nil =>
          -- The token drawn is the implied end of input, so it is the last.
          have hnil : drawn = [] :=
            List.eq_nil_iff_forall_not_mem.mpr fun u hu => hfirst u hu rfl
          rw [hnil]
          exact List.prefix_rfl
      | cons u ts => exact List.cons_prefix_cons.mpr ⟨rfl, ih hrest hstops'⟩

end

/-! ## Languages without an end of input -/

theorem IsType.endOfInput_not_mem {context : SlotContext} {ts : List Token}
    (h : IsType context ts) : .endOfInput ∉ ts := by
  induction h with
  | name x => simp
  | marked hm _ ih => cases hm <;> simp [ih]
  | dotted x _ ih => simp [ih]

theorem IsParameterSlot.endOfInput_not_mem {ts : List Token} (h : IsParameterSlot ts) :
    .endOfInput ∉ ts := by
  cases h with
  | bare x => simp
  | typed x h => simp [h.endOfInput_not_mem]
  | qualified x h => simp [h.endOfInput_not_mem]

theorem CommaList.endOfInput_not_mem {Item : List Token → Prop}
    (hItem : ∀ ts, Item ts → .endOfInput ∉ ts) {items : List (List Token)} {ts : List Token}
    (h : CommaList Item items ts) : .endOfInput ∉ ts := by
  induction h with
  | nil => simp
  | last h => exact hItem _ h
  | cons h _ ih => simp [hItem _ h, ih]

theorem IsHeader.endOfInput_not_mem {o : Outline} {ts : List Token} (h : IsHeader o ts) :
    .endOfInput ∉ ts := by
  cases h with
  | mk x hstar hlist =>
      have hparams := hlist.endOfInput_not_mem fun _ => IsParameterSlot.endOfInput_not_mem
      rcases hstar with rfl | rfl
      · simp [hparams]
      · simp [hparams]

namespace Reader

variable {α β : Type} {R : Reader α} {S : α → Reader β}

/-! ## Readers that stop -/

/-- Draws the next token, whatever it is. -/
def draw : Reader (Located Token) := fun stop ts => .ok (nextToken stop ts)

/-- Draws nothing. -/
def conclude (out : Except ParseError α) : Reader α := fun _ ts => out.map (·, ts)

/-- The tokens `drawn` settle what is read: wherever they are drawn from, the outcome is `out`, and
left is what follows them. -/
def SettledBy (R : Reader α) (drawn : Tokens) (out : Except ParseError α) : Prop :=
  ∀ stop ts rest, Draws stop ts drawn rest → R stop ts = out.map (·, rest)

/-- What is read of `ts` is settled by tokens drawn from it, of which none is drawn behind an end of
input. -/
def Stops (R : Reader α) (stop : Nat) (ts : Tokens) : Prop :=
  ∃ drawn rest out, Draws stop ts drawn rest ∧ StopsDrawing drawn ∧ R.SettledBy drawn out

/-- What is read of any list is settled by its first tokens, and an end of input behind the list at
most; if an end of input is among them, it is the last. -/
def StopsAtEnd (R : Reader α) : Prop :=
  ∀ stop ts, ∃ drawn out, drawn <+: ts ++ [endAt stop] ∧ StopsDrawing drawn ∧
    (∃ rest, Draws stop ts drawn rest) ∧ R.SettledBy drawn out

/-- Where reading succeeds, no end of input has been taken. -/
def TakesNoEnd (R : Reader α) : Prop :=
  ∀ drawn a, R.SettledBy drawn (.ok a) → ∀ t ∈ drawn, t.value ≠ .endOfInput

section
variable {stop : Nat} {ts : Tokens} {L : List Token → α → Prop}

theorem Stops.stopsAtEnd (h : ∀ stop ts, R.Stops stop ts) : R.StopsAtEnd := by
  intro stop ts
  obtain ⟨drawn, rest, out, hdraws, hstops, hsettled⟩ := h stop ts
  exact ⟨drawn, out, hdraws.isPrefix hstops, hstops, ⟨rest, hdraws⟩, hsettled⟩

/-- What succeeds reads its own language, and that has no end of input. -/
theorem Accepts.takesNoEnd (h : R.Accepts L) (hL : ∀ us a, L us a → .endOfInput ∉ us) :
    R.TakesNoEnd := by
  intro drawn a hsettled t ht hend
  have hread := hsettled 0 (drawn ++ []) [] (draws_append 0 drawn [])
  obtain ⟨us, hus, front, rfl, hfront⟩ := (h 0 _ [] a).mp hread
  rw [List.append_cancel_right_eq] at hfront
  subst hfront
  exact hL _ a hus (List.mem_map.mpr ⟨t, ht, hend⟩)

theorem settledBy_conclude (out : Except ParseError α) : (conclude out).SettledBy [] out := by
  intro stop ts rest hdraws
  obtain rfl : ts = rest := hdraws
  rfl

theorem stops_conclude (out : Except ParseError α) (stop : Nat) (ts : Tokens) :
    (conclude out).Stops stop ts :=
  ⟨[], ts, out, rfl, .nil, settledBy_conclude out⟩

/-- **One token.**  Drawing goes on behind a token that is not the end of input, and needs not go on
where the reader concludes. -/
theorem Stops.draw {S : Located Token → Reader β}
    (h : (∃ out, S (nextToken stop ts).1 = conclude out) ∨
      (nextToken stop ts).1.value ≠ .endOfInput ∧
        (S (nextToken stop ts).1).Stops stop (nextToken stop ts).2) :
    (draw.andThen S).Stops stop ts := by
  have hsettled : ∀ {t drawn out}, (S t).SettledBy drawn out →
      (Reader.draw.andThen S).SettledBy (t :: drawn) out := by
    rintro _ drawn out hS stop' ts' rest' ⟨rfl, hdraws⟩
    exact hS stop' _ rest' hdraws
  rcases h with ⟨out, hout⟩ | ⟨hne, drawn, rest, out, hdraws, hstops, hS⟩
  · refine ⟨[(nextToken stop ts).1], _, out, ⟨rfl, rfl⟩, List.pairwise_singleton _ _, hsettled ?_⟩
    rw [hout]
    exact settledBy_conclude out
  · exact ⟨_ :: drawn, rest, out, ⟨rfl, hdraws⟩, List.pairwise_cons.mpr ⟨fun _ _ => hne, hstops⟩,
      hsettled hS⟩

/-- **One part behind another.** -/
theorem Stops.andThen (hR : R.Stops stop ts) (hfree : R.TakesNoEnd)
    (hS : ∀ a mid, R stop ts = .ok (a, mid) → (S a).Stops stop mid) :
    (R.andThen S).Stops stop ts := by
  obtain ⟨drawn, mid, out, hdraws, hstops, hsettled⟩ := hR
  cases out with
  | error e =>
      refine ⟨drawn, mid, .error e, hdraws, hstops, fun stop' ts' rest' hdraws' => ?_⟩
      rw [Reader.andThen, hsettled stop' ts' rest' hdraws']
      rfl
  | ok a =>
      obtain ⟨drawn', rest, out, hdraws', hstops', hsettled'⟩ :=
        hS a mid (hsettled stop ts mid hdraws)
      refine ⟨drawn ++ drawn', rest, out, draws_append_iff.mpr ⟨mid, hdraws, hdraws'⟩, ?_, ?_⟩
      -- The first part has succeeded, so it has taken no end of input and more may be drawn.
      · exact List.pairwise_append.mpr
          ⟨hstops, hstops', fun t ht _ _ => hfree drawn a hsettled t ht⟩
      · intro stop' ts' rest' hdraws
        obtain ⟨mid', hfirst, hsecond⟩ := draws_append_iff.mp hdraws
        rw [Reader.andThen, hsettled stop' ts' mid' hfirst]
        exact hsettled' stop' mid' rest' hsecond

/-- What is made of the outcome draws nothing more. -/
theorem Stops.map (hR : R.Stops stop ts) (f : α → β) :
    (R.andThen fun a => done (f a)).Stops stop ts := by
  obtain ⟨drawn, rest, out, hdraws, hstops, hsettled⟩ := hR
  refine ⟨drawn, rest, out.map f, hdraws, hstops, fun stop' ts' rest' hdraws' => ?_⟩
  rw [Reader.andThen, hsettled stop' ts' rest' hdraws']
  cases out <;> rfl

end

/-! ## Receiver and name -/

theorem token_eq (pick : Token → Option α) (otherwise : Token → ParseCause) :
    token pick otherwise = draw.andThen fun t =>
      conclude ((pick t.value).elim (.error ⟨otherwise t.value, t.span⟩) .ok) := by
  funext stop ts
  rw [token, accept, andThen, draw]
  cases h : pick (nextToken stop ts).1.value <;> simp [h, conclude, ok_bind, Except.map]

theorem stops_token (pick : Token → Option α) (otherwise : Token → ParseCause) (stop : Nat)
    (ts : Tokens) : (token pick otherwise).Stops stop ts := by
  rw [token_eq]
  exact .draw (.inl ⟨_, rfl⟩)

theorem takesNoEnd_only {u : Token} {otherwise : Token → ParseCause} (hu : u ≠ .endOfInput) :
    (token (Token.only u) otherwise).TakesNoEnd :=
  (accepts_only hu).takesNoEnd fun _ _ h => by simp [h, hu.symm]

theorem takesNoEnd_name {otherwise : Token → ParseCause} :
    (token Token.name? otherwise).TakesNoEnd :=
  accepts_name.takesNoEnd fun _ _ h => by simp [h]

theorem takesNoEnd_starredName : starredName.TakesNoEnd :=
  accepts_starredName.takesNoEnd fun _ _ ⟨star, hstar, h⟩ => by
    rcases hstar with rfl | rfl <;> simp [h]

theorem starredName_eq : starredName = draw.andThen fun t =>
    if t.value = .star then token Token.name? .receiverNotFound
    else conclude (t.value.name?.elim (.error ⟨.receiverNotFound t.value, t.span⟩) .ok) := by
  funext stop ts
  by_cases hstar : (nextToken stop ts).1.value = .star
  · cases ts with
    | nil => cases hstar
    | cons t ts =>
        rw [starredName_star stop t ts hstar, andThen, draw, ok_bind, if_pos hstar]
        rfl
  · rw [starredName_of_ne hstar, token_eq, andThen, andThen, draw, ok_bind, ok_bind,
      if_neg hstar]

theorem stops_starredName (stop : Nat) (ts : Tokens) : starredName.Stops stop ts := by
  rw [starredName_eq]
  refine .draw ?_
  by_cases hstar : (nextToken stop ts).1.value = .star
  · refine .inr ⟨by simp [hstar], ?_⟩
    rw [if_pos hstar]
    exact stops_token _ _ _ _
  · exact .inl ⟨_, if_neg hstar⟩

theorem stops_readReceiver (stop : Nat) (ts : Tokens) : Reader.Stops readReceiver stop ts := by
  rw [readReceiver_eq]
  refine (stops_token _ _ _ _).andThen (takesNoEnd_only (by simp)) fun _ _ _ => ?_
  refine (stops_token _ _ _ _).andThen (takesNoEnd_only (by simp)) fun _ _ _ => ?_
  refine (stops_token _ _ _ _).andThen takesNoEnd_name fun _ _ _ => ?_
  refine (stops_starredName _ _).andThen takesNoEnd_starredName fun receiver _ _ => ?_
  exact (stops_token _ _ _ _).map fun _ => receiver

theorem takesNoEnd_readReceiver : Reader.TakesNoEnd readReceiver :=
  accepts_readReceiver.takesNoEnd fun _ _ ⟨x, star, hstar, h⟩ => by
    rcases hstar with rfl | rfl <;> simp [h]

/-! ## Slots -/

/-- No state goes on with the end of input. -/
theorem shift?_endOfInput (context : SlotContext) (fresh : Bool) (state : SlotState) :
    state.shift? context fresh .endOfInput = none := by
  cases state <;> rfl

theorem slotFrom_eq (context : SlotContext) (state : SlotState) (read : List Token) :
    slotFrom context state read = draw.andThen fun t =>
      match state.shift? context read.isEmpty t.value with
      | some next => slotFrom context next (read ++ [t.value])
      | none => conclude (closeSlot context state read t) := by
  funext stop ts
  rw [andThen, draw, ok_bind]
  cases hshift : state.shift? context read.isEmpty (nextToken stop ts).1.value with
  | none => exact readSlot_of_close hshift
  | some next =>
      cases ts with
      | nil => exact absurd hshift (by simp [nextToken, endAt, shift?_endOfInput])
      | cons t ts => exact readSlot_of_shift? hshift

/-- **Slots stop.** -/
theorem stops_slotFrom (context : SlotContext) (state : SlotState) (read : List Token) (stop : Nat)
    (ts : Tokens) : (slotFrom context state read).Stops stop ts := by
  induction ts generalizing state read with
  | nil =>
      rw [slotFrom_eq]
      exact .draw (.inl ⟨closeSlot context state read (endAt stop),
        by simp [nextToken, endAt, shift?_endOfInput]⟩)
  | cons t ts ih =>
      rw [slotFrom_eq]
      refine .draw ?_
      cases hshift : state.shift? context read.isEmpty t.value with
      | none => exact .inl ⟨closeSlot context state read t, by simp [nextToken, hshift]⟩
      | some next =>
          refine .inr ⟨fun hend => ?_, ?_⟩
          · have hnone := shift?_endOfInput context read.isEmpty state
            rw [← hend] at hnone
            exact absurd (hshift.symm.trans hnone) (by simp)
          · simp only [nextToken, hshift]
            exact ih next _

theorem endOfInput_not_mem_closed {us : List Token} (h : .endOfInput ∉ us) (more : Bool) :
    .endOfInput ∉ us ++ [if more then .comma else .rightParen] := by
  cases more <;> simp [h]

theorem takesNoEnd_parameterSlot : (slot .parameter).TakesNoEnd :=
  (accepts_parameterSlot "x").takesNoEnd fun us a ⟨hitem, h⟩ => by
    rw [h]
    refine endOfInput_not_mem_closed (fun hmem => ?_) a.more
    exact hitem.endOfInput_not_mem (List.mem_cons_of_mem _ hmem)

theorem takesNoEnd_resultSlot : (slot .resultList).TakesNoEnd :=
  accepts_resultSlot.takesNoEnd fun us a ⟨hitem, h⟩ => by
    rw [h]
    refine endOfInput_not_mem_closed ?_ a.more
    rcases hitem with htype | ⟨hempty, _⟩
    · exact htype.endOfInput_not_mem
    · simp [hempty]

/-! ## Lists of slots -/

theorem stops_slotsBehind {L : Reader (List β)} {f : Slot → β} {a : Slot} {stop : Nat} {ts : Tokens}
    (h : a.more = true → L.Stops stop ts) : (slotsBehind L f a).Stops stop ts := by
  rw [slotsBehind]
  split
  · rename_i hm
    exact (h hm).map _
  · exact stops_conclude (.ok [f a]) stop ts

/-- What the first token makes of a list of parameters. -/
def parametersAt (t : Located Token) : Reader (List ParameterSlot) :=
  match t.value with
  | .rightParen => conclude (.ok [])
  | .identifier x => (slot .parameter).andThen (parametersBehind x)
  | .endOfInput => conclude (.error ⟨.unterminated .parameter, t.span⟩)
  | found => conclude (.error ⟨.unexpectedInParameters found, t.span⟩)

theorem readParameterSlots_eq : readParameterSlots = draw.andThen parametersAt := by
  funext stop ts
  rw [andThen, draw, ok_bind]
  cases ts with
  | nil =>
      rw [readParameterSlots]
      rfl
  | cons t ts =>
      show _ = parametersAt t stop ts
      cases ht : t.value with
      | identifier x => rw [readParameterSlots_cons ht, parametersAt, ht]
      | _ =>
          rw [readParameterSlots]
          simp [parametersAt, conclude, ht, Except.map]

/-- **Lists of parameters stop.**  Behind a name a slot is read, and the list goes on behind that. -/
theorem stops_readParameterSlots (stop : Nat) (ts : Tokens) :
    Reader.Stops readParameterSlots stop ts := by
  rw [readParameterSlots_eq]
  refine .draw ?_
  cases ts with
  | nil => exact .inl ⟨_, rfl⟩
  | cons t ts =>
      cases ht : t.value with
      | identifier x =>
          refine .inr ⟨by simp [nextToken, ht], ?_⟩
          simp only [nextToken, parametersAt, ht]
          refine (stops_slotFrom _ _ _ _ _).andThen takesNoEnd_parameterSlot fun a mid hread => ?_
          have hle : mid.length ≤ ts.length := readSlot_length_le hread
          exact stops_slotsBehind fun _ => stops_readParameterSlots stop mid
      | _ =>
          simp only [nextToken, parametersAt, ht]
          exact .inl ⟨_, rfl⟩
termination_by ts.length
decreasing_by
  simp only [List.length_cons]
  omega

/-- **Lists of results stop.** -/
theorem stops_readResultSlots (stop : Nat) (ts : Tokens) :
    Reader.Stops readResultSlots stop ts := by
  rw [readResultSlots_eq]
  refine (stops_slotFrom _ _ _ _ _).andThen takesNoEnd_resultSlot fun a mid hread => ?_
  refine stops_slotsBehind fun hm => ?_
  have hlt : mid.length < ts.length := readSlot_length_lt hread hm
  exact stops_readResultSlots stop mid
termination_by ts.length

/-! ## The whole signature -/

theorem stops_readParameters (stop : Nat) (ts : Tokens) :
    Reader.Stops readParameters stop ts := by
  show ((token (Token.only .leftParen) .parametersNotOpened).andThen fun _ =>
    andThen readParameterSlots fun slots => done (resolveParameters slots)).Stops stop ts
  refine (stops_token _ _ _ _).andThen (takesNoEnd_only (by simp)) fun _ _ _ => ?_
  exact (stops_readParameterSlots _ _).map resolveParameters

theorem stops_readResultList (stop : Nat) (ts : Tokens) :
    Reader.Stops readResultList stop ts := by
  show ((token (Token.only .leftParen) .resultsNotOpened).andThen fun _ =>
    andThen readResultSlots fun slots => done (slots.filterMap Slot.result?)).Stops stop ts
  refine (stops_token _ _ _ _).andThen (takesNoEnd_only (by simp)) fun _ _ _ => ?_
  exact (stops_readResultSlots _ _).map (·.filterMap Slot.result?)

theorem stops_readHeader (stop : Nat) (ts : Tokens) : Reader.Stops readHeader stop ts := by
  show (andThen readReceiver fun receiver =>
    (token Token.name? .missingMethodName).andThen fun name =>
    andThen readParameters fun parameters =>
    done (⟨receiver, name, parameters, []⟩ : Method)).Stops stop ts
  refine (stops_readReceiver _ _).andThen takesNoEnd_readReceiver fun receiver _ _ => ?_
  refine (stops_token _ _ _ _).andThen takesNoEnd_name fun name _ _ => ?_
  exact (stops_readParameters _ _).map _

theorem takesNoEnd_readHeader : Reader.TakesNoEnd readHeader :=
  accepts_readHeader.takesNoEnd fun _ _ ⟨_, _, hheader⟩ => hheader.endOfInput_not_mem

theorem stops_bareShape (stop : Nat) (ts : Tokens) : bareShape.Stops stop ts :=
  (stops_readHeader stop ts).andThen takesNoEnd_readHeader fun _ _ _ =>
    (stops_slotFrom _ _ _ _ _).map _

theorem stops_parenthesizedShape (stop : Nat) (ts : Tokens) : parenthesizedShape.Stops stop ts :=
  (stops_readHeader stop ts).andThen takesNoEnd_readHeader fun _ _ _ =>
    (stops_readResultList _ _).map _

end Reader

/-- What `shape` makes of `ts` is settled by the tokens `drawn`: they are drawn from `ts`, one past its
last token at most and none behind an end of input, and from whatever list they are drawn, the shape
makes the same of it. -/
structure SettledWithin (shape : Tokens → Except ParseError Method) (ts drawn : Tokens) : Prop where
  draws : ∃ rest, Draws (endPosition ts) ts drawn rest
  within : drawn <+: ts ++ [endAt (endPosition ts)]
  stops : StopsDrawing drawn
  settled : ∀ ts' rest', Draws (endPosition ts') ts' drawn rest' → shape ts' = shape ts

theorem Reader.StopsAtEnd.settledWithin {R : Reader Method} (hR : R.StopsAtEnd)
    {shape : Tokens → Except ParseError Method}
    (hshape : ∀ ts, shape ts = (R (endPosition ts) ts).map Prod.fst) (ts : Tokens) :
    ∃ drawn, SettledWithin shape ts drawn := by
  obtain ⟨drawn, out, hwithin, hstops, ⟨rest, hdraws⟩, hsettled⟩ := hR (endPosition ts) ts
  refine ⟨drawn, ⟨rest, hdraws⟩, hwithin, hstops, fun ts' rest' hdraws' => ?_⟩
  rw [hshape, hshape, hsettled _ _ _ hdraws, hsettled _ _ _ hdraws']
  cases out <;> rfl

/-- An end of input behind a list, and whatever follows it, makes no difference. -/
theorem SettledWithin.append {shape : Tokens → Except ParseError Method} {ts drawn : Tokens}
    (h : SettledWithin shape ts drawn) (us : Tokens) :
    shape (ts ++ [endAt (endPosition ts)] ++ us) = shape ts := by
  obtain ⟨behind, hbehind⟩ := h.within
  refine h.settled _ (behind ++ us) ?_
  rw [← hbehind, List.append_assoc]
  exact draws_append _ drawn (behind ++ us)

/-- **Signatures stop at the first end of input.**  What either shape makes of a list of tokens is
what it makes of the list with the end of input behind it, and of that with anything behind it.  It is
settled by tokens drawn from the list and one end of input past them at most, and behind an end of
input none is drawn; the same holds of a slot in every state and of both lists of slots. -/
theorem shapes_stop_at_end {shape : Tokens → Except ParseError Method}
    (hshape : shape ∈ [readBareResult, readParenthesizedResults]) (ts us : Tokens) :
    shape (ts ++ [endAt (endPosition ts)]) = shape ts ∧
      shape (ts ++ [endAt (endPosition ts)] ++ us) = shape ts ∧
      (∃ drawn, SettledWithin shape ts drawn) ∧
      (∀ context state read, (Reader.slotFrom context state read).StopsAtEnd) ∧
      Reader.StopsAtEnd readParameterSlots ∧ Reader.StopsAtEnd readResultSlots := by
  have hsettled : ∃ drawn, SettledWithin shape ts drawn := by
    rcases List.mem_cons.mp hshape with rfl | hshape
    · exact (Reader.Stops.stopsAtEnd Reader.stops_bareShape).settledWithin
        Reader.readBareResult_eq ts
    · obtain rfl := List.mem_singleton.mp hshape
      exact (Reader.Stops.stopsAtEnd Reader.stops_parenthesizedShape).settledWithin
        Reader.readParenthesizedResults_eq ts
  obtain ⟨drawn, hdrawn⟩ := hsettled
  refine ⟨?_, hdrawn.append us, ⟨drawn, hdrawn⟩, fun context state read => ?_, ?_, ?_⟩
  · have hend := hdrawn.append []
    rwa [List.append_nil] at hend
  · exact Reader.Stops.stopsAtEnd (Reader.stops_slotFrom context state read)
  · exact Reader.Stops.stopsAtEnd Reader.stops_readParameterSlots
  · exact Reader.Stops.stopsAtEnd Reader.stops_readResultSlots

/-- A list of parameters that is never closed, in front of the end of input and a parenthesis. -/
theorem shapes_stop_at_end_openList :
    let ts : Tokens := [⟨⟨0, 4⟩, .func⟩, ⟨⟨5, 6⟩, .leftParen⟩, ⟨⟨6, 7⟩, .identifier "d"⟩,
      ⟨⟨8, 10⟩, .identifier "db"⟩, ⟨⟨10, 11⟩, .rightParen⟩, ⟨⟨12, 13⟩, .identifier "F"⟩,
      ⟨⟨13, 14⟩, .leftParen⟩, ⟨⟨14, 15⟩, .identifier "x"⟩, ⟨⟨15, 16⟩, .comma⟩]
    let us : Tokens := [⟨⟨16, 17⟩, .rightParen⟩, ⟨⟨18, 19⟩, .leftParen⟩, ⟨⟨19, 20⟩, .rightParen⟩]
    let e : ParseError := ⟨.unterminated .parameter, ⟨16, 16⟩⟩
    readParenthesizedResults ts = .error e ∧
      readParenthesizedResults (ts ++ [endAt 16]) = .error e ∧
      readParenthesizedResults (ts ++ [endAt 16] ++ us) = .error e := by
  intro ts us e
  have hslots : readParameterSlots 16 [⟨⟨14, 15⟩, .identifier "x"⟩, ⟨⟨15, 16⟩, .comma⟩] =
      .error e := by
    rw [readParameterSlots_identifier rfl rfl, readParameterSlots]
    rfl
  have hheader : readHeader (endPosition ts) ts = .error e := by
    show ((readParameterSlots 16 _ >>= _) >>= _) = _
    rw [hslots]
    rfl
  have h : readParenthesizedResults ts = .error e :=
    readParenthesizedResults_of_header_error hheader
  have hshape : readParenthesizedResults ∈ [readBareResult, readParenthesizedResults] := by simp
  obtain ⟨hend, hbehind, -⟩ := shapes_stop_at_end hshape ts us
  exact ⟨h, hend.trans h, hbehind.trans h⟩

end MethodSkeleton
