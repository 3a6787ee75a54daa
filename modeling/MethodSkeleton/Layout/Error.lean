/-
# `MethodSkeleton.Layout.Error` — why a source is not laid out

The layout refuses what it cannot read, delimiters that do not match and commas with
nothing in front of them.
-/
import MethodSkeleton.Source.Lexeme

namespace MethodSkeleton

/-- The three pairs of delimiters. -/
inductive Bracket
  | round
  | square
  | curly
deriving DecidableEq, Repr

/-- The character that opens a pair. -/
def Bracket.opening : Bracket → Char
  | .round => '('
  | .square => '['
  | .curly => '{'

/-- The character that closes a pair. -/
def Bracket.closing : Bracket → Char
  | .round => ')'
  | .square => ']'
  | .curly => '}'

/-- The pair that a token opens. -/
def Kind.opens? : Kind → Option Bracket
  | .leftParen => some .round
  | .leftBracket => some .square
  | .leftBrace => some .curly
  | _ => none

/-- The pair that a token closes. -/
def Kind.closes? : Kind → Option Bracket
  | .rightParen => some .round
  | .rightBracket => some .square
  | .rightBrace => some .curly
  | _ => none

/-- Why a source is refused. -/
inductive LayoutCause
  | invalidUtf8
  | scan (why : ScanFault)
  | emptyElement
  | unexpectedClose (closed : Bracket)
  | mismatched (opened closed : Bracket)
  | unclosed (opened : Bracket)
deriving DecidableEq, Repr

/-- The wording of a cause. -/
def LayoutCause.message : LayoutCause → String
  | invalidUtf8 => "generated source is not valid UTF-8"
  | scan why => why.message
  | emptyElement => "empty list element before `,`"
  | unexpectedClose closed => "unexpected closing `" ++ closed.closing.toString ++ "`"
  | mismatched opened closed =>
    "mismatched delimiter: `" ++ opened.opening.toString ++ "` closed by `" ++
      closed.closing.toString ++ "`"
  | unclosed opened => "unclosed `" ++ opened.opening.toString ++ "`"

/-- A cause and the place of the token, or the stretch, that it is about. -/
structure LayoutError where
  cause : LayoutCause
  span : Span
deriving DecidableEq, Repr

/-- The full text of the error. -/
def LayoutError.message (e : LayoutError) : String :=
  "format error: " ++ e.cause.message ++ " (at " ++ e.span.render ++ ")"

end MethodSkeleton
