/-
# `MethodSkeleton.Signature.Token` — the scanner's output as a signature sees it

Only what the signature grammar can use has a token of its own.  Any other word, literal
or operator, and any stretch that is no token at all, is `unexpected` and carries its
text; blanks, line breaks and comments are not there.
-/
import MethodSkeleton.Source.Scan

namespace MethodSkeleton

/-- The tokens of a signature. -/
inductive Token
  | func
  | identifier (name : String)
  | leftParen
  | rightParen
  | leftBracket
  | rightBracket
  | star
  | dot
  | comma
  | ellipsis
  | leftBrace
  | endOfInput
  | unexpected (text : String)
deriving DecidableEq, Repr

namespace Token

/-- The source text of a token. -/
def text : Token → String
  | func => "func"
  | identifier name => name
  | leftParen => "("
  | rightParen => ")"
  | leftBracket => "["
  | rightBracket => "]"
  | star => "*"
  | dot => "."
  | comma => ","
  | ellipsis => "..."
  | leftBrace => "\x7b"
  | endOfInput => ""
  | unexpected text => text

/-- The source text of several tokens, run together. -/
def spell (ts : List Token) : String := String.join (ts.map text)

theorem spell_cons (t : Token) (ts : List Token) : spell (t :: ts) = t.text ++ spell ts :=
  String.join_cons

/-- How a message names a token. -/
def describe : Token → String
  | identifier name => "identifier `" ++ name ++ "`"
  | endOfInput => "end of input"
  | t => "`" ++ t.text ++ "`"

/-- The word that a word of the source is to the grammar. -/
def ofWord (word : String) : Token :=
  if word = "func" then func
  else if isKeyword word then unexpected word
  else identifier word

/-- The token of a lexeme; blanks, line breaks and comments have none. -/
def ofLexeme? (x : Lexeme) : Option Token :=
  match x.is with
  | .blank | .token .newline | .token .lineComment | .token .blockComment => none
  | .token .identifier => some (ofWord (String.ofList x.text))
  | .token .leftParen => some leftParen
  | .token .rightParen => some rightParen
  | .token .leftBracket => some leftBracket
  | .token .rightBracket => some rightBracket
  | .token .star => some star
  | .token .dot => some dot
  | .token .comma => some comma
  | .token .ellipsis => some ellipsis
  | .token .leftBrace => some leftBrace
  | .token _ | .fault _ => some (unexpected (String.ofList x.text))

end Token

/-- The tokens among located lexemes, each in its place. -/
def tokensOf (xs : List (Located Lexeme)) : List (Located Token) :=
  xs.filterMap fun x => (Token.ofLexeme? x.value).map (⟨x.span, ·⟩)

/-- The end of the input, `position` bytes in. -/
def endAt (position : Nat) : Located Token := ⟨Span.at position, .endOfInput⟩

/-- The tokens of a text, closed by exactly one end of input. -/
def tokenize (source : String) : List (Located Token) :=
  tokensOf (Lexeme.locate 0 (lexemes source.toList)) ++ [endAt (byteWidth source.toList)]

end MethodSkeleton
