/-
# `MethodSkeleton.Layout.Spacing` — which neighbours are set apart

Between two tokens of a line stands one space or nothing.  The decision looks at both
tokens, at what is already known about the first, at the innermost open delimiter, at the
kind of the token behind the second, and, where all that leaves it open — `x *T` or
`x * y`, `f() (T)` or `f()(x)` — at the blanks of the source.

The rules are tried in order and the first that applies decides.
-/
import MethodSkeleton.Layout.Piece

namespace MethodSkeleton

/-- What an open delimiter delimits: a parenthesis, the index of `a[i]`, the bracket of a
type such as `[]T`, the body of a block, the elements of a composite value. -/
inductive Role
  | paren
  | index
  | typeBracket
  | block
  | composite
deriving DecidableEq, Repr

/-- An open delimiter, and whether it deepens the lines up to its end. -/
structure Opening where
  role : Role
  indents : Bool
deriving DecidableEq, Repr

/-- What is remembered of a token once it is written. -/
structure Written where
  kind : Kind
  text : List Char
  /-- It is the first token of its line. -/
  first : Bool
  /-- It is an operator in front of its only operand. -/
  unary : Bool
  /-- It closes the bracket of a type. -/
  closesType : Bool
  /-- It opens the body of a block. -/
  opensBlock : Bool
deriving DecidableEq, Repr

/-- What is known of a line from all its tokens. -/
structure LineTraits where
  /-- It holds a word whose clause ends in a block. -/
  control : Bool
  /-- It begins with `func`. -/
  function : Bool
deriving DecidableEq, Repr

/-- The delimiters that are open: those from earlier lines and those from this one, the
innermost first in both. -/
structure Openings where
  outer : List Opening
  inner : List Opening
deriving DecidableEq, Repr

/-- The innermost open delimiter. -/
def Openings.innermost? (o : Openings) : Option Opening := (o.inner ++ o.outer).head?

namespace Written

/-- Whether the token is a reserved word. -/
def isReserved (w : Written) : Bool :=
  w.kind == .identifier && isKeyword (String.ofList w.text)

/-- Whether the token is the word `word`. -/
def isWord (w : Written) (word : String) : Bool :=
  w.kind == .identifier && w.text == word.toList

/-- Whether an expression or a type can end with the token. -/
def isOperand (w : Written) : Bool :=
  match w.kind with
  | .identifier => !w.isReserved
  | .number | .string | .rawString | .rune => true
  | .rightParen | .rightBrace => true
  | .rightBracket => !w.closesType
  | _ => false

end Written

/-- The traits of a line. -/
def LineTraits.ofLine (line : List Piece) : LineTraits where
  control := line.any (·.isOneOf ["if", "for", "switch", "select", "else"])
  function := (line.head?.map (·.isWord "func")).getD false

/-- The operators that have both a unary and a binary form. -/
def Kind.hasUnaryForm : Kind → Bool
  | .star | .ampersand | .minus | .plus | .caret | .arrow | .tilde => true
  | _ => false

/-- Whether the token `p`, written behind `prev`, stands in front of its only operand.
Behind an operand that is so only if the source sets the operator off on the left alone. -/
def isUnary (prev : Option Written) (p : Piece) : Bool :=
  if p.kind = .bang then true
  else if p.kind.hasUnaryForm then
    match prev with
    | some w => if w.isOperand then p.blankBefore && !p.blankAfter else true
    | none => true
  else false

/-- Whether an opening bracket begins a type and not an index. -/
def beginsType (prev : Option Written) (p : Piece) (next : Option Kind) : Bool :=
  match prev with
  | some w => if w.isOperand then p.blankBefore || next == some .rightBracket else true
  | none => true

/-- The tokens that are never set off from what precedes them. -/
def Kind.clingsLeft : Kind → Bool
  | .comma | .semicolon | .rightParen | .rightBracket | .dot | .colon | .increment
  | .decrement => true
  | _ => false

/-- The tokens from which nothing is ever set off. -/
def Kind.clingsRight : Kind → Bool
  | .leftParen | .leftBracket | .dot | .ellipsis => true
  | _ => false

/-- The tokens that end an operand other than a word or a literal. -/
def Kind.isCloser (kind : Kind) : Bool :=
  kind == .rightParen || kind == .rightBracket || kind == .rightBrace

/-- Whether an opening parenthesis is set off from `w`.  A method's declaration sets its
receiver off from `func`; a function literal does not. -/
def spaceBeforeParen (traits : LineTraits) (w : Written) (p : Piece) : Bool :=
  if w.isWord "func" then traits.function && w.first
  else if w.isReserved then true
  else if w.kind = .identifier then false
  else if w.kind.isCloser then p.blankBefore
  else true

/-- Whether an opening bracket is set off from `w`. -/
def spaceBeforeBracket (w : Written) (p : Piece) (next : Option Kind) : Bool :=
  if w.isWord "map" then false
  else if w.isOperand then p.blankBefore || next == some .rightBracket
  else true

/-- Whether an opening brace is set off from `w`: the brace of a body is, the brace of a
composite value is not. -/
def spaceBeforeBrace (traits : LineTraits) (w : Written) (p : Piece) (next : Option Kind) : Bool :=
  if (w.isWord "struct" || w.isWord "interface") && next == some .rightBrace then false
  else if w.isReserved then true
  else if w.kind = .rightParen then true
  else if w.isOperand then (traits.control || traits.function) && p.blankBefore
  else true

/-- Whether a closing brace is set off from what precedes it. -/
def spaceBeforeClosingBrace (openings : Openings) (p : Piece) : Bool :=
  match openings.inner, openings.outer with
  | innermost :: _, _ => innermost.role = .block
  | [], _ :: _ => p.blankBefore
  | [], [] => false

/-- Whether a space stands between the written token `w` and the token `p`, which a token
of the kind `next` follows on the line. -/
def spaceBetween (traits : LineTraits) (openings : Openings) (w : Written) (p : Piece)
    (next : Option Kind) : Bool :=
  if p.kind.isComment || w.kind == .blockComment then true
  else if p.kind.clingsLeft then false
  else if w.kind.clingsRight then false
  else if w.kind = .comma ∨ w.kind = .semicolon then true
  else if w.kind = .colon then !(openings.innermost?.any (·.role == .index))
  else if w.unary || w.closesType then false
  else if p.kind = .ellipsis then p.blankBefore
  else if p.kind = .leftParen then spaceBeforeParen traits w p
  else if p.kind = .leftBracket then spaceBeforeBracket w p next
  else if p.kind = .leftBrace then spaceBeforeBrace traits w p next
  else if w.kind = .leftBrace then p.kind != .rightBrace && w.opensBlock
  else if p.kind = .rightBrace then spaceBeforeClosingBrace openings p
  else true

end MethodSkeleton
