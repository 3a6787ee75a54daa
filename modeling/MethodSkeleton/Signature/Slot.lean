/-
# `MethodSkeleton.Signature.Slot` — one type of a signature

A slot is a place where a type stands: behind a parameter's name, in a result list, or
as the only result.  All three are read by one automaton with two states.  A token either
carries the slot on (`SlotState.shift?`) or ends it (`closeSlot`), well or badly; the
tokens that end one well are not among those that carry one on, so the order in which the
two are asked makes no difference.

A slot keeps its tokens, not its text: the text is their spellings run together.
-/
import MethodSkeleton.Signature.Error

namespace MethodSkeleton

/-- Tokens still to be read. -/
abbrev Tokens := List (Located Token)

/-- The first token and what follows it; past the last token, the end of input at `stop`. -/
def nextToken (stop : Nat) : Tokens → Located Token × Tokens
  | [] => (endAt stop, [])
  | t :: ts => (t, ts)

/-- Where the automaton is: in front of a mark or a name, or behind a name. -/
inductive SlotState
  | opening
  | named
deriving DecidableEq, Repr

/-- The tokens of a slot, and whether another slot follows in the list. -/
structure Slot where
  tokens : List Token
  more : Bool
deriving DecidableEq, Repr

/-- Whether a token ends a slot, and if it does, whether another slot follows. -/
def SlotContext.terminator? : SlotContext → Token → Option Bool
  | .parameter, .comma | .resultList, .comma => some true
  | .parameter, .rightParen | .resultList, .rightParen => some false
  | .resultType, .leftBrace | .resultType, .endOfInput => some false
  | _, _ => none

/-- The state behind a token that carries the slot on; `fresh` says that the slot has no
token yet.  Spread marks belong to parameters, and so does a dot right at the start: there
the name before the slot was the name of a package. -/
def SlotState.shift? (context : SlotContext) (fresh : Bool) : SlotState → Token → Option SlotState
  | .opening, .star | .opening, .leftBracket | .opening, .rightBracket => some .opening
  | .opening, .ellipsis => if context = .parameter then some .opening else none
  | .opening, .dot => if context = .parameter && fresh then some .opening else none
  | .opening, .identifier _ => some .named
  | .named, .dot => some .opening
  | _, _ => none

/-- The outcome of a slot at a token that does not carry it on.  A slot without tokens is
allowed, except in front of a comma in a result list. -/
def closeSlot (context : SlotContext) (state : SlotState) (read : List Token)
    (t : Located Token) : Except ParseError Slot :=
  match context.terminator? t.value with
  | some more =>
    if state = .named then .ok ⟨read, more⟩
    else if read ≠ [] then .error ⟨.incompleteType context read, t.span⟩
    else if context = .resultList ∧ more = true then
      .error ⟨.unexpectedToken context t.value, t.span⟩
    else .ok ⟨[], more⟩
  | none =>
    if t.value = .endOfInput then .error ⟨.unterminated context, t.span⟩
    else .error ⟨.unexpectedToken context t.value, t.span⟩

/-- Reads a slot of which the tokens `read` have been read, and what follows it. -/
def readSlot (context : SlotContext) (stop : Nat) :
    SlotState → List Token → Tokens → Except ParseError (Slot × Tokens)
  | state, read, [] => (closeSlot context state read (endAt stop)).map (·, [])
  | state, read, t :: ts =>
    match state.shift? context read.isEmpty t.value with
    | some state => readSlot context stop state (read ++ [t.value]) ts
    | none => (closeSlot context state read t).map (·, ts)

/-! ## A slot takes tokens away -/

/-- Reading a slot never leaves more tokens than there were. -/
theorem readSlot_length_le {context : SlotContext} {stop : Nat} {state : SlotState}
    {read : List Token} {ts rest : Tokens} {slot : Slot}
    (h : readSlot context stop state read ts = .ok (slot, rest)) :
    rest.length ≤ ts.length := by
  induction ts generalizing state read with
  | nil =>
    cases hc : closeSlot context state read (endAt stop) with
    | error e => simp [readSlot, hc, Except.map] at h
    | ok s =>
      simp [readSlot, hc, Except.map] at h
      simp [← h.2]
  | cons t ts ih =>
    simp only [readSlot] at h
    split at h
    · exact Nat.le_succ_of_le (ih h)
    · cases hc : closeSlot context state read t with
      | error e => simp [hc, Except.map] at h
      | ok s =>
        simp [hc, Except.map] at h
        simp [← h.2]

/-- The end of input leads to no further slot. -/
theorem closeSlot_endAt_more {context : SlotContext} {state : SlotState} {read : List Token}
    {stop : Nat} {slot : Slot} (h : closeSlot context state read (endAt stop) = .ok slot) :
    slot.more = false := by
  cases context <;> simp [closeSlot, endAt, SlotContext.terminator?] at h
  grind

/-- A slot that another slot follows is ended by a comma, so reading it leaves fewer tokens. -/
theorem readSlot_length_lt {context : SlotContext} {stop : Nat} {state : SlotState}
    {read : List Token} {ts rest : Tokens} {slot : Slot}
    (h : readSlot context stop state read ts = .ok (slot, rest)) (hm : slot.more = true) :
    rest.length < ts.length := by
  cases ts with
  | nil =>
    cases hc : closeSlot context state read (endAt stop) with
    | error e => simp [readSlot, hc, Except.map] at h
    | ok s =>
      simp [readSlot, hc, Except.map] at h
      have hs := closeSlot_endAt_more hc
      simp [h.1, hm] at hs
  | cons t ts =>
    simp only [readSlot] at h
    split at h
    · exact Nat.lt_succ_of_le (readSlot_length_le h)
    · cases hc : closeSlot context state read t with
      | error e => simp [hc, Except.map] at h
      | ok s =>
        simp [hc, Except.map] at h
        simp [← h.2]

end MethodSkeleton
