/-
# `MethodSkeleton.Proofs.Signature.Slot` — the slot automaton reads types

`readSlot_ok_iff` says exactly when a slot is read, from either state and with any tokens
already read: what the automaton goes on to take is what completes a type from that state
(`SlotState.Takes`), and the token behind it ends a slot.  Both directions are one
induction over the tokens, because the automaton has no choice: a token that ends a slot is
never one that carries it on.
-/
import MethodSkeleton.Proofs.Signature.Language

namespace MethodSkeleton

/-! ## Located tokens in front of others -/

/-- The located tokens `ts` are the tokens `us`, wherever they stand, and then `rest`. -/
def SplitsAs (ts : Tokens) (us : List Token) (rest : Tokens) : Prop :=
  ∃ front, front.map (·.value) = us ∧ ts = front ++ rest

@[simp] theorem splitsAs_nil_iff {ts rest : Tokens} : SplitsAs ts [] rest ↔ ts = rest := by
  simp [SplitsAs]

theorem splitsAs_append_iff {ts rest : Tokens} {us vs : List Token} :
    SplitsAs ts (us ++ vs) rest ↔ ∃ mid, SplitsAs ts us mid ∧ SplitsAs mid vs rest := by
  constructor
  · rintro ⟨front, hf, rfl⟩
    obtain ⟨f, g, rfl, hus, hvs⟩ := List.map_eq_append_iff.mp hf
    exact ⟨g ++ rest, ⟨f, hus, List.append_assoc ..⟩, ⟨g, hvs, rfl⟩⟩
  · rintro ⟨mid, ⟨f, hus, rfl⟩, ⟨g, hvs, rfl⟩⟩
    exact ⟨f ++ g, by rw [List.map_append, hus, hvs], (List.append_assoc ..).symm⟩

theorem splitsAs_cons_iff {ts rest : Tokens} {u : Token} {us : List Token} :
    SplitsAs ts (u :: us) rest ↔
      ∃ t mid, ts = t :: mid ∧ t.value = u ∧ SplitsAs mid us rest := by
  constructor
  · rintro ⟨front, hf, rfl⟩
    obtain ⟨t, f, rfl, ht, hus⟩ := List.map_eq_cons_iff.mp hf
    exact ⟨t, f ++ rest, rfl, ht, ⟨f, hus, rfl⟩⟩
  · rintro ⟨t, mid, rfl, ht, ⟨f, hus, rfl⟩⟩
    exact ⟨t :: f, by rw [List.map_cons, ht, hus], rfl⟩

@[simp] theorem splitsAs_cons_cons_iff {t : Located Token} {ts rest : Tokens} {u : Token}
    {us : List Token} :
    SplitsAs (t :: ts) (u :: us) rest ↔ t.value = u ∧ SplitsAs ts us rest := by
  rw [splitsAs_cons_iff]
  constructor
  · rintro ⟨t', mid, h, ht, hs⟩
    cases h
    exact ⟨ht, hs⟩
  · rintro ⟨ht, hs⟩
    exact ⟨t, ts, rfl, ht, hs⟩

@[simp] theorem not_splitsAs_nil_cons {rest : Tokens} {u : Token} {us : List Token} :
    ¬ SplitsAs [] (u :: us) rest := by
  simp [splitsAs_cons_iff]

/-- A list of values begins with `us` exactly if the located tokens do. -/
theorem exists_splitsAs_iff {ts : Tokens} {us vs : List Token} :
    ts.map (·.value) = us ++ vs ↔ ∃ rest, SplitsAs ts us rest ∧ rest.map (·.value) = vs := by
  constructor
  · intro h
    obtain ⟨f, g, rfl, hus, hvs⟩ := List.map_eq_append_iff.mp h
    exact ⟨g, ⟨f, hus, rfl⟩, hvs⟩
  · rintro ⟨rest, ⟨f, hus, rfl⟩, hvs⟩
    rw [List.map_append, hus, hvs]

/-! ## What completes a type -/

/-- The tokens that complete a type from a state; `fresh` says that the slot has no token
yet, in which case a parameter may go on with a dot. -/
def SlotState.Completes (context : SlotContext) (fresh : Bool) : SlotState → List Token → Prop
  | .named, us => us = [] ∨ ∃ vs, us = .dot :: vs ∧ IsType context vs
  | .opening, us => IsType context us ∨
      (fresh = true ∧ context = .parameter ∧ ∃ vs, us = .dot :: vs ∧ IsType context vs)

theorem not_isType_nil {context : SlotContext} : ¬ IsType context [] := by
  intro h
  cases h

theorem not_isType_dot {context : SlotContext} {us : List Token} :
    ¬ IsType context (.dot :: us) := by
  intro h
  cases h with
  | marked hm _ => cases hm

theorem isType_identifier_iff {context : SlotContext} {x : String} {us : List Token} :
    IsType context (.identifier x :: us) ↔ SlotState.named.Completes context false us := by
  constructor
  · intro h
    cases h with
    | name => exact Or.inl rfl
    | marked hm _ => cases hm
    | dotted _ h => exact Or.inr ⟨_, rfl, h⟩
  · rintro (rfl | ⟨vs, rfl, h⟩)
    · exact .name x
    · exact .dotted x h

theorem isType_mark_iff {context : SlotContext} {m : Token} {us : List Token}
    (hm : IsMark context m) : IsType context (m :: us) ↔ IsType context us := by
  constructor
  · intro h
    cases h with
    | name => cases hm
    | marked _ h => exact h
    | dotted => cases hm
  · exact .marked hm

/-- One step of the automaton takes one token off what completes a type. -/
theorem completes_cons_iff {context : SlotContext} {fresh : Bool} {state : SlotState}
    {t : Token} {us : List Token} :
    state.Completes context fresh (t :: us) ↔
      ∃ next, state.shift? context fresh t = some next ∧ next.Completes context false us := by
  cases state with
  | named =>
      cases t <;> simp [SlotState.Completes, SlotState.shift?]
  | opening =>
      cases t with
      | identifier x =>
          simp [SlotState.shift?, SlotState.Completes, isType_identifier_iff]
      | star =>
          simp [SlotState.shift?, SlotState.Completes, isType_mark_iff .star]
      | leftBracket =>
          simp [SlotState.shift?, SlotState.Completes, isType_mark_iff .leftBracket]
      | rightBracket =>
          simp [SlotState.shift?, SlotState.Completes, isType_mark_iff .rightBracket]
      | ellipsis =>
          by_cases hc : context = .parameter
          · subst hc
            simp [SlotState.shift?, SlotState.Completes, isType_mark_iff (.ellipsis rfl)]
          · have hn : ¬ IsType context (.ellipsis :: us) := by
              intro h
              cases h with
              | marked hm _ => cases hm with | ellipsis h => exact hc h
            simp [SlotState.shift?, SlotState.Completes, hc, hn]
      | dot =>
          by_cases hc : context = .parameter <;> cases fresh <;>
            simp [SlotState.shift?, SlotState.Completes, not_isType_dot, hc]
      | _ =>
          simp only [SlotState.shift?, SlotState.Completes, reduceCtorEq, List.cons.injEq,
            false_and, and_false, exists_false, or_false, iff_false]
          intro h
          cases h with
          | marked hm _ => cases hm

/-! ## What ends a slot -/

theorem shift?_eq_none_of_terminator? {context : SlotContext} {t : Token} {more : Bool}
    (h : context.terminator? t = some more) (fresh : Bool) (state : SlotState) :
    state.shift? context fresh t = none := by
  cases context <;> cases t <;> simp [SlotContext.terminator?] at h <;>
    cases state <;> rfl

/-- The tokens `us` make up the rest of a slot of which `read` has been read: they complete a
type, or the whole slot is empty and may be, which it may not in front of a comma in a result
list. -/
def SlotState.Takes (context : SlotContext) (more : Bool) (state : SlotState)
    (read us : List Token) : Prop :=
  state.Completes context read.isEmpty us ∨
    (state = .opening ∧ read = [] ∧ us = [] ∧ ¬ (context = .resultList ∧ more = true))

theorem takes_nil_iff {context : SlotContext} {more : Bool} {state : SlotState}
    {read : List Token} : state.Takes context more read [] ↔
      state = .named ∨
        (state = .opening ∧ read = [] ∧ ¬ (context = .resultList ∧ more = true)) := by
  cases state <;> simp [SlotState.Takes, SlotState.Completes, not_isType_nil]

theorem takes_cons_iff {context : SlotContext} {more : Bool} {state : SlotState}
    {read us : List Token} {t : Token} : state.Takes context more read (t :: us) ↔
      ∃ next, state.shift? context read.isEmpty t = some next ∧
        next.Takes context more (read ++ [t]) us := by
  have hfresh : (read ++ [t]).isEmpty = false := by simp
  simp [SlotState.Takes, completes_cons_iff, hfresh]

/-- The tokens `ts` are the slot's tokens `us`, a token that ends the slot — past the last
token, the end of input — and `rest`. -/
def EndsSlot (context : SlotContext) (more : Bool) (us : List Token) (ts rest : Tokens) : Prop :=
  (∃ e, context.terminator? e = some more ∧ SplitsAs ts (us ++ [e]) rest) ∨
  (context.terminator? .endOfInput = some more ∧ SplitsAs ts us [] ∧ rest = [])

theorem endsSlot_nil_iff {context : SlotContext} {more : Bool} {us : List Token}
    {rest : Tokens} : EndsSlot context more us [] rest ↔
      us = [] ∧ rest = [] ∧ context.terminator? .endOfInput = some more := by
  cases us with
  | nil => simp [EndsSlot, and_comm]
  | cons u us => simp [EndsSlot]

theorem endsSlot_cons_iff {context : SlotContext} {more : Bool} {us : List Token}
    {t : Located Token} {ts rest : Tokens} : EndsSlot context more us (t :: ts) rest ↔
      (us = [] ∧ rest = ts ∧ context.terminator? t.value = some more) ∨
      ∃ vs, us = t.value :: vs ∧ EndsSlot context more vs ts rest := by
  cases us with
  | nil =>
      simp only [EndsSlot, List.nil_append, splitsAs_cons_cons_iff, splitsAs_nil_iff]
      grind
  | cons u us =>
      simp only [EndsSlot, List.cons_append, splitsAs_cons_cons_iff, List.cons.injEq]
      grind

theorem closeSlot_ok_iff {context : SlotContext} {state : SlotState} {read : List Token}
    {t : Located Token} {slot : Slot} : closeSlot context state read t = .ok slot ↔
      slot.tokens = read ∧ context.terminator? t.value = some slot.more ∧
        state.Takes context slot.more read [] := by
  obtain ⟨tokens, m⟩ := slot
  rw [takes_nil_iff]
  cases hm : context.terminator? t.value with
  | none =>
      simp only [closeSlot, hm]
      split <;> simp
  | some more =>
      cases state with
      | named =>
          simp [closeSlot, hm, eq_comm]
      | opening =>
          by_cases hr : read = []
          · subst hr
            by_cases he : context = .resultList ∧ more = true
            · simp only [closeSlot, hm, if_pos he]
              grind
            · simp only [closeSlot, hm, if_neg he]
              grind
          · simp [closeSlot, hm, hr]

/-! ## Reading a slot -/

theorem readSlot_nil_iff {context : SlotContext} {stop : Nat} {state : SlotState}
    {read : List Token} {rest : Tokens} {slot : Slot} :
    readSlot context stop state read [] = .ok (slot, rest) ↔
      closeSlot context state read (endAt stop) = .ok slot ∧ rest = [] := by
  cases h : closeSlot context state read (endAt stop) <;>
    simp [readSlot, h, Except.map, eq_comm]

theorem readSlot_of_shift? {context : SlotContext} {stop : Nat} {state next : SlotState}
    {read : List Token} {t : Located Token} {ts : Tokens}
    (h : state.shift? context read.isEmpty t.value = some next) :
    readSlot context stop state read (t :: ts) =
      readSlot context stop next (read ++ [t.value]) ts := by
  simp [readSlot, h]

theorem readSlot_of_shift?_eq_none {context : SlotContext} {stop : Nat} {state : SlotState}
    {read : List Token} {t : Located Token} {ts rest : Tokens} {slot : Slot}
    (h : state.shift? context read.isEmpty t.value = none) :
    readSlot context stop state read (t :: ts) = .ok (slot, rest) ↔
      closeSlot context state read t = .ok slot ∧ rest = ts := by
  cases hc : closeSlot context state read t <;>
    simp [readSlot, h, hc, Except.map, eq_comm]

/-- A slot is read exactly if tokens that complete a type from the present state come next,
or none where the slot may be empty, and then a token that ends it. -/
theorem readSlot_ok_iff {context : SlotContext} {stop : Nat} {state : SlotState}
    {read : List Token} {ts rest : Tokens} {slot : Slot} :
    readSlot context stop state read ts = .ok (slot, rest) ↔
      ∃ us, slot.tokens = read ++ us ∧ EndsSlot context slot.more us ts rest ∧
        state.Takes context slot.more read us := by
  induction ts generalizing state read with
  | nil =>
      rw [readSlot_nil_iff, closeSlot_ok_iff]
      constructor
      · rintro ⟨⟨hread, he, hs⟩, rfl⟩
        exact ⟨[], by rw [hread, List.append_nil], endsSlot_nil_iff.mpr ⟨rfl, rfl, he⟩, hs⟩
      · rintro ⟨us, hread, hends, hs⟩
        obtain ⟨rfl, rfl, he⟩ := endsSlot_nil_iff.mp hends
        exact ⟨⟨by rw [hread, List.append_nil], he, hs⟩, rfl⟩
  | cons t ts ih =>
      cases hs : state.shift? context read.isEmpty t.value with
      | some next =>
          rw [readSlot_of_shift? hs, ih]
          constructor
          · rintro ⟨us, htok, he, ht⟩
            refine ⟨t.value :: us, ?_, endsSlot_cons_iff.mpr (Or.inr ⟨us, rfl, he⟩), ?_⟩
            · rw [htok, List.append_assoc, List.singleton_append]
            · exact takes_cons_iff.mpr ⟨next, hs, ht⟩
          · rintro ⟨us, htok, he, ht⟩
            rcases endsSlot_cons_iff.mp he with ⟨_, _, hend⟩ | ⟨vs, rfl, hvs⟩
            · -- the token carries the slot on, so it does not end it
              rw [shift?_eq_none_of_terminator? hend] at hs
              cases hs
            · obtain ⟨next', hs', ht⟩ := takes_cons_iff.mp ht
              rw [hs] at hs'
              cases hs'
              exact ⟨vs, by rw [htok, List.append_assoc, List.singleton_append], hvs, ht⟩
      | none =>
          rw [readSlot_of_shift?_eq_none hs, closeSlot_ok_iff]
          constructor
          · rintro ⟨⟨htok, he, ht⟩, rfl⟩
            exact ⟨[], by rw [htok, List.append_nil],
              endsSlot_cons_iff.mpr (Or.inl ⟨rfl, rfl, he⟩), ht⟩
          · rintro ⟨us, htok, he, ht⟩
            rcases endsSlot_cons_iff.mp he with ⟨rfl, rfl, hend⟩ | ⟨vs, rfl, hvs⟩
            · exact ⟨⟨by rw [htok, List.append_nil], hend, ht⟩, rfl⟩
            · obtain ⟨next, hs', _⟩ := takes_cons_iff.mp ht
              rw [hs] at hs'
              cases hs'

end MethodSkeleton
