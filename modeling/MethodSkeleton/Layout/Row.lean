/-
# `MethodSkeleton.Layout.Row` — arranging one line

A row is a line as it will be written: how deep it stands and, token by token, whether a
space comes first.  Arranging a line also tells which delimiters it leaves open.  Of those
that it opened itself the innermost deepens the lines that follow, and only that one.

How deep a row stands is the number of deepening delimiters that are open behind its
leading closers; the labels of a `switch` stand one level further out.
-/
import MethodSkeleton.Layout.Delimiters
import MethodSkeleton.Layout.Spacing

namespace MethodSkeleton

/-- A token and whether a space comes before it. -/
structure Word where
  spaced : Bool
  text : List Char
deriving DecidableEq, Repr

/-- A line as it is written. -/
structure Row where
  depth : Nat
  words : List Word
deriving DecidableEq, Repr

namespace Openings

/-- Opens a delimiter on the current line. -/
def push (o : Openings) (role : Role) : Openings := { o with inner := ⟨role, false⟩ :: o.inner }

/-- Closes the innermost delimiter. -/
def pop (o : Openings) : Openings :=
  match o.inner, o.outer with
  | _ :: inner, outer => ⟨outer, inner⟩
  | [], _ :: outer => ⟨outer, []⟩
  | [], [] => ⟨[], []⟩

/-- What is open when the line ends: the innermost delimiter of the line now deepens. -/
def endLine (o : Openings) : List Opening :=
  match o.inner with
  | [] => o.outer
  | innermost :: inner => { innermost with indents := true } :: inner ++ o.outer

end Openings

/-- The number of delimiters that deepen. -/
def level (openings : List Opening) : Nat := openings.countP (·.indents)

/-- The role of a delimiter that the token `p` opens, behind `prev`, when it is set off or
not. -/
def roleOf (prev : Option Written) (p : Piece) (spaced : Bool) (next : Option Kind) : Role :=
  match p.kind with
  | .leftParen => .paren
  | .leftBracket => if beginsType prev p next then .typeBracket else .index
  | _ => if prev.isNone || spaced then .block else .composite

/-- The delimiters that are open behind the token `p`. -/
def openingsBehind (openings : Openings) (prev : Option Written) (p : Piece) (spaced : Bool)
    (next : Option Kind) : Openings :=
  if p.kind.opens?.isSome then openings.push (roleOf prev p spaced next)
  else if p.kind.closes?.isSome then openings.pop
  else openings

/-- What is remembered of the token `p`. -/
def writtenAs (openings : Openings) (prev : Option Written) (p : Piece) (spaced : Bool) :
    Written where
  kind := p.kind
  text := p.text
  first := prev.isNone
  unary := isUnary prev p
  closesType := p.kind.closes?.isSome && openings.innermost?.any (·.role == .typeBracket)
  opensBlock := p.kind == .leftBrace && (prev.isNone || spaced)

/-- Whether a space comes before the token `p`. -/
def spaceBefore (traits : LineTraits) (openings : Openings) (prev : Option Written) (p : Piece)
    (next : Option Kind) : Bool :=
  match prev with
  | some w => spaceBetween traits openings w p next
  | none => false

/-- The words of the rest of a line, and the delimiters that are open behind it. -/
def arrangeWords (traits : LineTraits) : Openings → Option Written → List Piece →
    List Word × Openings
  | openings, _, [] => ([], openings)
  | openings, prev, p :: ps =>
    let next := ps.head?.map (·.kind)
    let spaced := spaceBefore traits openings prev p next
    let (words, openings) :=
      arrangeWords traits (openingsBehind openings prev p spaced next)
        (some (writtenAs openings prev p spaced)) ps
    (⟨spaced, p.text⟩ :: words, openings)

/-- The number of closing delimiters that a line begins with. -/
def leadingClosers (line : List Piece) : Nat :=
  (line.takeWhile (·.kind.closes?.isSome)).length

/-- Whether a line begins with a label, which stands one level further out. -/
def beginsWithLabel (line : List Piece) : Bool :=
  (line.head?.map (·.isOneOf ["case", "default"])).getD false

/-- How deep a line stands when `openings` are open before it. -/
def rowDepth (openings : List Opening) (line : List Piece) : Nat :=
  level (openings.drop (leadingClosers line)) - if beginsWithLabel line then 1 else 0

/-- Arranges a line in front of which `openings` are open; also what is open behind it. -/
def arrangeRow (openings : List Opening) (line : List Piece) : Row × List Opening :=
  let (words, behind) := arrangeWords (.ofLine line) ⟨openings, []⟩ none line
  (⟨rowDepth openings line, words⟩, behind.endLine)

/-- The text of a word. -/
def Word.render (w : Word) : List Char := if w.spaced then ' ' :: w.text else w.text

/-- The text of a row: its depth in tabs, then its words. -/
def Row.render (r : Row) : List Char :=
  List.replicate r.depth '\t' ++ r.words.flatMap Word.render

end MethodSkeleton
