/-
# `MethodSkeleton.Proofs.Signature.Language` — what a signature looks like

The language of signatures, said by tokens alone and without the automaton that reads it:

    HEADER = func ( ident [*] ident ) ident ( PARAMS )
    PARAMS = (SLOT ,)* [SLOT]       RESULTS = (TYPE ,)* [TYPE]
    SLOT   = ident | ident TYPE | ident . TYPE
    TYPE   = MARK* ident (. MARK* ident)*

A signature is a header and then `( RESULTS )`, or a header and then `[TYPE]` up to an
opening brace or the end.  A mark is a star or a bracket; in a parameter it may also be a
spread.

`IsType` is written from the left, one token or one dotted name at a time, because that is
the order in which an automaton meets the tokens; the language is the one above.

An `Outline` holds what a signature's tokens say, with the tokens of every slot and of every
result type kept apart; `Outline.method` is the method that it declares.
-/
import MethodSkeleton.Signature.Grammar

namespace MethodSkeleton

/-! ## Types and slots -/

/-- The tokens that may stand in front of a name in a type. -/
inductive IsMark (context : SlotContext) : Token → Prop
  | star : IsMark context .star
  | leftBracket : IsMark context .leftBracket
  | rightBracket : IsMark context .rightBracket
  | ellipsis : context = .parameter → IsMark context .ellipsis

/-- `MARK* ident (. MARK* ident)*`. -/
inductive IsType (context : SlotContext) : List Token → Prop
  | name (x : String) : IsType context [.identifier x]
  | marked {m : Token} {ts : List Token} : IsMark context m → IsType context ts →
      IsType context (m :: ts)
  | dotted (x : String) {ts : List Token} : IsType context ts →
      IsType context (.identifier x :: .dot :: ts)

/-- `ident | ident TYPE | ident . TYPE`. -/
inductive IsParameterSlot : List Token → Prop
  | bare (x : String) : IsParameterSlot [.identifier x]
  | typed (x : String) {ts : List Token} : IsType .parameter ts →
      IsParameterSlot (.identifier x :: ts)
  | qualified (x : String) {ts : List Token} : IsType .parameter ts →
      IsParameterSlot (.identifier x :: .dot :: ts)

/-- `CommaList Item items ts`: the tokens `ts` are `(ITEM ,)* [ITEM]`, and `items` are the
tokens of each item. -/
inductive CommaList (Item : List Token → Prop) : List (List Token) → List Token → Prop
  | nil : CommaList Item [] []
  | last {item : List Token} : Item item → CommaList Item [item] item
  | cons {item : List Token} {items : List (List Token)} {ts : List Token} :
      Item item → CommaList Item items ts →
      CommaList Item (item :: items) (item ++ .comma :: ts)

/-- `[TYPE]`, and the types that are there. -/
inductive OptionalType (context : SlotContext) : List (List Token) → List Token → Prop
  | none : OptionalType context [] []
  | some {ts : List Token} : IsType context ts → OptionalType context [ts] ts

/-! ## Signatures -/

/-- What the tokens of a signature say. -/
structure Outline where
  receiver : String
  name : String
  slots : List (List Token)
  results : List (List Token)
deriving DecidableEq, Repr

/-- `func ( ident [*] ident ) ident ( PARAMS )`. -/
inductive IsHeader (o : Outline) : List Token → Prop
  | mk (x : String) {star params : List Token} :
      star = [] ∨ star = [.star] → CommaList IsParameterSlot o.slots params →
      IsHeader o (.func :: .leftParen :: .identifier x :: star ++
        .identifier o.receiver :: .rightParen :: .identifier o.name :: .leftParen :: params ++
        [.rightParen])

/-- What ends a bare result: an opening brace, the end of input, or no token at all. -/
def EndsBareResult (ts : List Token) : Prop :=
  ts = [] ∨ (∃ rest, ts = .leftBrace :: rest) ∨ ∃ rest, ts = .endOfInput :: rest

/-- The list begins with `HEADER ( RESULTS )`. -/
def BeginsParenthesized (o : Outline) (ts : List Token) : Prop :=
  ∃ header results rest, IsHeader o header ∧
    CommaList (IsType .resultList) o.results results ∧
    ts = header ++ .leftParen :: results ++ .rightParen :: rest

/-- The list begins with `HEADER [TYPE] END`. -/
def BeginsBare (o : Outline) (ts : List Token) : Prop :=
  ∃ header type rest, IsHeader o header ∧ OptionalType .resultType o.results type ∧
    EndsBareResult rest ∧ ts = header ++ type ++ rest

/-! ## What a signature declares -/

/-- The slot that its tokens make. -/
def ParameterSlot.ofTokens : List Token → ParameterSlot
  | .identifier x :: ts => ParameterSlot.ofSlot x ts
  | _ => .qualified []

/-- The method that an outline declares. -/
def Outline.method (o : Outline) : Method where
  receiver := o.receiver
  name := o.name
  parameters := resolveParameters (o.slots.map ParameterSlot.ofTokens)
  results := o.results.map Token.spell

/-- The method says what the outline says: the same receiver and name, one parameter for
every slot, and for every result type the spellings of its tokens run together. -/
structure Method.Follows (m : Method) (o : Outline) : Prop where
  receiver : m.receiver = o.receiver
  name : m.name = o.name
  parameters : m.parameters.length = o.slots.length
  results : m.results = o.results.map Token.spell

theorem length_groupParameters (waiting : List String) (slots : List ParameterSlot) :
    (groupParameters waiting slots).length = waiting.length + slots.length := by
  induction slots generalizing waiting with
  | nil => simp [groupParameters]
  | cons slot slots ih =>
      cases slot with
      | bare name => simp [groupParameters, ih, Nat.add_assoc, Nat.add_comm 1]
      | typed name type => simp [groupParameters, ih]
      | qualified type => simp [groupParameters, ih, Nat.add_assoc]

/-- No slot is lost and none is counted twice. -/
theorem length_resolveParameters (slots : List ParameterSlot) :
    (resolveParameters slots).length = slots.length := by
  unfold resolveParameters
  split
  · rw [length_groupParameters]
    exact Nat.zero_add _
  · exact List.length_map _

theorem Outline.method_follows (o : Outline) : o.method.Follows o where
  receiver := rfl
  name := rfl
  parameters := by
    show (resolveParameters _).length = _
    rw [length_resolveParameters, List.length_map]
  results := rfl

end MethodSkeleton
