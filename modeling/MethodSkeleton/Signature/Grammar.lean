/-
# `MethodSkeleton.Signature.Grammar` — reading a signature

A signature is a header — `func`, the receiver, the method's name, the parameters — and
then its results, in one of two shapes: a single bare type up to an opening brace or the
end of the text, or a list in parentheses.  Each shape is a function on a whole list of
tokens that stops where its shape is complete.  A text is a signature if one of the two
accepts it; if neither does, the complaint is the one about the list in parentheses.
-/
import MethodSkeleton.Signature.Method
import MethodSkeleton.Signature.Slot

namespace MethodSkeleton

/-- Takes the next token if `pick` knows it, and complains about it otherwise. -/
def accept {α : Type} (stop : Nat) (pick : Token → Option α) (otherwise : Token → ParseCause)
    (ts : Tokens) : Except ParseError (α × Tokens) :=
  let (t, rest) := nextToken stop ts
  match pick t.value with
  | some a => .ok (a, rest)
  | none => .error ⟨otherwise t.value, t.span⟩

/-- Knows exactly the token `t`. -/
def Token.only (t : Token) (u : Token) : Option Unit := if u = t then some () else none

/-- The name of an identifier. -/
def Token.name? : Token → Option String
  | .identifier name => some name
  | _ => none

/-- Leaves out a star, if one comes next. -/
def skipStar : Tokens → Tokens
  | ⟨_, .star⟩ :: ts => ts
  | ts => ts

/-! ## Receiver and name -/

/-- Reads `func (variable *Type)` and answers the type's name. -/
def readReceiver (stop : Nat) (ts : Tokens) : Except ParseError (String × Tokens) := do
  let (_, ts) ← accept stop (Token.only .func) .missingFunc ts
  let (_, ts) ← accept stop (Token.only .leftParen) .receiverNotFound ts
  let (_, ts) ← accept stop Token.name? .receiverNotFound ts
  let (receiver, ts) ← accept stop Token.name? .receiverNotFound (skipStar ts)
  let (_, ts) ← accept stop (Token.only .rightParen) .receiverNotClosed ts
  return (receiver, ts)

/-! ## Parameters -/

/-- A parameter as it is written: a name with a type, a name alone — which may turn out to
be a type — or a type that begins with the name of a package. -/
inductive ParameterSlot
  | typed (name : String) (type : List Token)
  | bare (name : String)
  | qualified (type : List Token)
deriving DecidableEq, Repr

/-- The parameter that a name and the slot behind it make. -/
def ParameterSlot.ofSlot (name : String) (tokens : List Token) : ParameterSlot :=
  match tokens with
  | [] => .bare name
  | .dot :: _ => .qualified (.identifier name :: tokens)
  | _ => .typed name tokens

/-- Whether the slot has both a name and a type. -/
def ParameterSlot.isTyped : ParameterSlot → Bool
  | .typed _ _ => true
  | _ => false

/-- The type that the slot writes when no slot of its list is typed. -/
def ParameterSlot.ownType : ParameterSlot → String
  | .typed _ type => Token.spell type
  | .bare name => name
  | .qualified type => Token.spell type

/-- Reads parameters, behind the opening parenthesis, up to the closing one. -/
def readParameterSlots (stop : Nat) (ts : Tokens) :
    Except ParseError (List ParameterSlot × Tokens) :=
  match ts with
  | [] => .error ⟨.unterminated .parameter, Span.at stop⟩
  | t :: ts =>
    match t.value with
    | .rightParen => .ok ([], ts)
    | .identifier name =>
      match _h : readSlot .parameter stop .opening [] ts with
      | .error e => .error e
      | .ok (slot, rest) =>
        let parameter := ParameterSlot.ofSlot name slot.tokens
        if slot.more then
          (readParameterSlots stop rest).map fun (parameters, ts) => (parameter :: parameters, ts)
        else .ok ([parameter], rest)
    | .endOfInput => .error ⟨.unterminated .parameter, t.span⟩
    | found => .error ⟨.unexpectedInParameters found, t.span⟩
termination_by ts.length
decreasing_by
  have := readSlot_length_le _h
  simp only [List.length_cons]
  omega

/-- Gives each name without a type the type of the next typed slot.  The names in `waiting`
come before the slots and have no type yet; those that never get one keep an empty type. -/
def groupParameters : List String → List ParameterSlot → List Parameter
  | waiting, [] => waiting.map (⟨·, ""⟩)
  | waiting, .bare name :: slots => groupParameters (waiting ++ [name]) slots
  | waiting, .typed name type :: slots =>
    (waiting ++ [name]).map (⟨·, Token.spell type⟩) ++ groupParameters [] slots
  | waiting, .qualified type :: slots => ⟨"", Token.spell type⟩ :: groupParameters waiting slots

/-- The parameters that a list of slots declares.  Without any typed slot it is a list of
types. -/
def resolveParameters (slots : List ParameterSlot) : List Parameter :=
  if slots.any (·.isTyped) then groupParameters [] slots
  else slots.map fun slot => ⟨"", slot.ownType⟩

/-- Reads `(name Type, ...)`. -/
def readParameters (stop : Nat) (ts : Tokens) : Except ParseError (List Parameter × Tokens) := do
  let (_, ts) ← accept stop (Token.only .leftParen) .parametersNotOpened ts
  let (slots, ts) ← readParameterSlots stop ts
  return (resolveParameters slots, ts)

/-! ## Results -/

/-- The result that a slot names; an empty slot names none. -/
def Slot.result? (slot : Slot) : Option String :=
  if slot.tokens = [] then none else some (Token.spell slot.tokens)

/-- Reads result types, behind the opening parenthesis, up to the closing one. -/
def readResultSlots (stop : Nat) (ts : Tokens) : Except ParseError (List Slot × Tokens) :=
  match _h : readSlot .resultList stop .opening [] ts with
  | .error e => .error e
  | .ok (slot, rest) =>
    if _hm : slot.more = true then
      (readResultSlots stop rest).map fun (slots, ts) => (slot :: slots, ts)
    else .ok ([slot], rest)
termination_by ts.length
decreasing_by exact readSlot_length_lt _h _hm

/-- Reads `(Type, ...)`. -/
def readResultList (stop : Nat) (ts : Tokens) : Except ParseError (List String × Tokens) := do
  let (_, ts) ← accept stop (Token.only .leftParen) .resultsNotOpened ts
  let (slots, ts) ← readResultSlots stop ts
  return (slots.filterMap Slot.result?, ts)

/-! ## The two shapes -/

/-- The position at which a list of tokens ends. -/
def endPosition (ts : Tokens) : Nat := (ts.getLast?.map (·.span.stop)).getD 0

/-- Reads everything before the results. -/
def readHeader (stop : Nat) (ts : Tokens) : Except ParseError (Method × Tokens) := do
  let (receiver, ts) ← readReceiver stop ts
  let (name, ts) ← accept stop Token.name? .missingMethodName ts
  let (parameters, ts) ← readParameters stop ts
  return (⟨receiver, name, parameters, []⟩, ts)

/-- A signature with one bare result type, or none, up to an opening brace or the end. -/
def readBareResult (ts : Tokens) : Except ParseError Method := do
  let stop := endPosition ts
  let (method, ts) ← readHeader stop ts
  let (slot, _) ← readSlot .resultType stop .opening [] ts
  return { method with results := slot.result?.toList }

/-- A signature whose results stand in parentheses. -/
def readParenthesizedResults (ts : Tokens) : Except ParseError Method := do
  let stop := endPosition ts
  let (method, ts) ← readHeader stop ts
  let (results, _) ← readResultList stop ts
  return { method with results := results }

/-- The method that a text declares. -/
def parseSignature (source : String) : Except ParseError Method :=
  match readBareResult (tokenize source) with
  | .ok method => .ok method
  | .error _ => readParenthesizedResults (tokenize source)

end MethodSkeleton
