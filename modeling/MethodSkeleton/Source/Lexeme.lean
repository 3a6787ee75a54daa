/-
# `MethodSkeleton.Source.Lexeme` — the pieces a source text is cut into

Every character of a source belongs to exactly one lexeme: a run of blanks, a token, or
a fault, which is the longest stretch that cannot be read.  Blanks and faults are kept
as lexemes of their own, so that the lexemes of a text always spell the text and each
reader — the signature grammar, the formatter — decides for itself what it skips and
what it refuses.
-/
import MethodSkeleton.Source.Span

namespace MethodSkeleton

/-- The kinds of token.  Operators that the layout rules never tell apart share one kind. -/
inductive Kind
  | newline
  | lineComment
  | blockComment
  | identifier
  | rawString
  | string
  | rune
  | number
  | ellipsis
  | star
  | ampersand
  | minus
  | plus
  | caret
  | tilde
  | bang
  | arrow
  | increment
  | decrement
  | operator
  | leftParen
  | rightParen
  | leftBracket
  | rightBracket
  | leftBrace
  | rightBrace
  | comma
  | semicolon
  | colon
  | dot
deriving DecidableEq, Repr

/-- Line and block comments. -/
def Kind.isComment : Kind → Bool
  | .lineComment | .blockComment => true
  | _ => false

/-- Why a stretch of the source is no token. -/
inductive ScanFault
  | invalidToken
  | unterminatedComment
deriving DecidableEq, Repr

/-- The wording of a scanner's complaint. -/
def ScanFault.message : ScanFault → String
  | .invalidToken => "invalid token"
  | .unterminatedComment => "unterminated comment"

/-- What a lexeme is. -/
inductive LexemeClass
  | blank
  | token (kind : Kind)
  | fault (why : ScanFault)
deriving DecidableEq, Repr

/-- A stretch of source text and what it is. -/
structure Lexeme where
  is : LexemeClass
  text : List Char
deriving DecidableEq, Repr

/-- Lexemes with their places, the first of them starting at `position`. -/
def Lexeme.locate (position : Nat) : List Lexeme → List (Located Lexeme)
  | [] => []
  | x :: xs =>
    let stop := position + byteWidth x.text
    ⟨⟨position, stop⟩, x⟩ :: locate stop xs

/-- The text that a list of lexemes spells. -/
def Lexeme.spell (xs : List Lexeme) : List Char := xs.flatMap (·.text)

/-! ## Fixed spellings -/

/-- The spellings that always mean the same token, longer ones before shorter ones, so
that the first that fits is the longest that fits. -/
def punctuation : List (List Char × Kind) :=
  [(['.', '.', '.'], .ellipsis),
   (['<', '<', '='], .operator),
   (['>', '>', '='], .operator),
   (['&', '^', '='], .operator),
   (['<', '-'], .arrow),
   (['+', '+'], .increment),
   (['-', '-'], .decrement),
   ([':', '='], .operator),
   (['+', '='], .operator),
   (['-', '='], .operator),
   (['*', '='], .operator),
   (['/', '='], .operator),
   (['%', '='], .operator),
   (['&', '='], .operator),
   (['|', '='], .operator),
   (['^', '='], .operator),
   (['=', '='], .operator),
   (['!', '='], .operator),
   (['<', '='], .operator),
   (['>', '='], .operator),
   (['&', '&'], .operator),
   (['|', '|'], .operator),
   (['<', '<'], .operator),
   (['>', '>'], .operator),
   (['&', '^'], .operator),
   (['*'], .star),
   (['&'], .ampersand),
   (['-'], .minus),
   (['+'], .plus),
   (['^'], .caret),
   (['~'], .tilde),
   (['!'], .bang),
   (['='], .operator),
   (['<'], .operator),
   (['>'], .operator),
   (['/'], .operator),
   (['%'], .operator),
   (['|'], .operator),
   (['('], .leftParen),
   ([')'], .rightParen),
   (['['], .leftBracket),
   ([']'], .rightBracket),
   (['{'], .leftBrace),
   (['}'], .rightBrace),
   ([','], .comma),
   ([';'], .semicolon),
   ([':'], .colon),
   (['.'], .dot)]

/-- The words that no identifier may be. -/
def keywords : List String :=
  ["break", "case", "chan", "const", "continue", "default", "defer", "else", "fallthrough",
   "for", "func", "go", "goto", "if", "import", "interface", "map", "package", "range",
   "return", "select", "struct", "switch", "type", "var"]

/-- Whether a word is reserved. -/
def isKeyword (word : String) : Bool := keywords.contains word

end MethodSkeleton
