/-
# `MethodSkeleton.Source.Scan` — cutting a source text into lexemes

`munch` looks at a character and what follows it and says what starts there and how many
*further* characters belong to it.  Since the first character always belongs to it, every
lexeme takes something away from the text; the cutting is then recursion on the text
itself, which skips the characters already spoken for, and needs neither fuel nor a
measure.

Within a number a letter or a digit always joins the part it follows, so the sign of an
exponent is never reached: `1e+5` is the number `1e`, a plus and the number `5`.
-/
import MethodSkeleton.Source.IdentifierChar
import MethodSkeleton.Source.Lexeme

namespace MethodSkeleton

/-- Space, tab and form feed separate tokens and are none. -/
def isBlank (c : Char) : Bool := c == ' ' || c == '\t' || c == '\x0c'

/-- Line feed and carriage return end a line. -/
def isLineEnd (c : Char) : Bool := c == '\n' || c == '\r'

/-- What follows the first digit of a number. -/
def isNumberPart (c : Char) : Bool := c.isAlphanum || c == '_'

/-- The length of the leading run of characters in `p`. -/
def runLength (p : Char → Bool) (cs : List Char) : Nat := (cs.takeWhile p).length

/-- The length of a block comment's body and closing `*/`, if it is closed. -/
def blockCommentLength : List Char → Option Nat
  | '*' :: '/' :: _ => some 2
  | _ :: cs => (blockCommentLength cs).map (· + 1)
  | [] => none

/-- The length of the text up to and with the next `quote`, if there is one. -/
def rawLength (quote : Char) : List Char → Option Nat
  | [] => none
  | c :: cs => if c = quote then some 1 else (rawLength quote cs).map (· + 1)

/-- The end of a quoted text, found from behind its opening quote. -/
inductive QuoteEnd
  | closed (length : Nat)
  | broken (length : Nat)
deriving DecidableEq, Repr

/-- One more item, `n` characters long, in front of the end. -/
def QuoteEnd.after (n : Nat) : QuoteEnd → QuoteEnd
  | .closed m => .closed (m + n)
  | .broken m => .broken (m + n)

/-- Reads plain characters, and backslashes with the character after them, up to the
closing `quote`; a line end, a backslash at a line feed or the end of the text breaks the
quotation off there. -/
def quoteEnd (quote : Char) : List Char → QuoteEnd
  | [] => .broken 0
  | '\\' :: c :: cs => if c = '\n' then .broken 0 else (quoteEnd quote cs).after 2
  | c :: cs =>
    if c = quote then .closed 1
    else if isLineEnd c || c = '\\' then .broken 0
    else (quoteEnd quote cs).after 1

/-- The length of a number after its first digit: letters, digits and `_`, with at most
one point among them. -/
def numberLength (cs : List Char) : Nat :=
  let whole := runLength isNumberPart cs
  match cs.drop whole with
  | '.' :: rest => whole + 1 + runLength isNumberPart rest
  | _ => whole

/-- The longest fixed spelling that `cs` starts with. -/
def punctuation? (cs : List Char) : Option (List Char × Kind) :=
  punctuation.find? fun entry => entry.1.isPrefixOf cs

/-- What starts at `c`, with `cs` behind it, and how many characters of `cs` it takes. -/
def munch (c : Char) (cs : List Char) : LexemeClass × Nat :=
  if isBlank c then (.blank, runLength isBlank cs)
  else if c = '\n' then (.token .newline, 0)
  else if c = '\r' then (.token .newline, if cs.head? = some '\n' then 1 else 0)
  else if c = '/' ∧ cs.head? = some '/' then
    (.token .lineComment, runLength (fun d => !isLineEnd d) cs)
  else if c = '/' ∧ cs.head? = some '*' then
    match blockCommentLength cs.tail with
    | some n => (.token .blockComment, n + 1)
    | none => (.fault .unterminatedComment, cs.length)
  else if isIdentifierStart c then (.token .identifier, runLength isIdentifierPart cs)
  else if c.isDigit then (.token .number, numberLength cs)
  else if c = '\x60' then
    match rawLength '\x60' cs with
    | some n => (.token .rawString, n)
    | none => (.fault .invalidToken, cs.length)
  else if c = '"' then
    match quoteEnd '"' cs with
    | .closed n => (.token .string, n)
    | .broken n => (.fault .invalidToken, n)
  else if c = '\'' then
    match quoteEnd '\'' cs with
    | .closed 1 => (.fault .invalidToken, 0)
    | .closed n => (.token .rune, n)
    | .broken n => (.fault .invalidToken, n)
  else
    match punctuation? (c :: cs) with
    | some (spelling, kind) => (.token kind, spelling.length - 1)
    | none => (.fault .invalidToken, 0)

/-- Cuts a text into lexemes after skipping its first `skip` characters. -/
def lexemesAfter : Nat → List Char → List Lexeme
  | _, [] => []
  | skip + 1, _ :: cs => lexemesAfter skip cs
  | 0, c :: cs =>
    let (is, more) := munch c cs
    ⟨is, c :: cs.take more⟩ :: lexemesAfter more cs

/-- The lexemes of a text, in order and with nothing left out. -/
def lexemes (cs : List Char) : List Lexeme := lexemesAfter 0 cs

theorem lexemesAfter_eq_lexemes_drop (skip : Nat) (cs : List Char) :
    lexemesAfter skip cs = lexemes (cs.drop skip) := by
  induction cs generalizing skip with
  | nil => cases skip <;> rfl
  | cons c cs ih =>
    cases skip with
    | zero => rfl
    | succ skip => simpa [lexemesAfter] using ih skip

/-- The lexemes of a text begin with what starts at its first character. -/
theorem lexemes_cons (c : Char) (cs : List Char) :
    lexemes (c :: cs) =
      ⟨(munch c cs).1, c :: cs.take (munch c cs).2⟩ :: lexemes (cs.drop (munch c cs).2) := by
  rw [← lexemesAfter_eq_lexemes_drop]
  rfl

/-- Lexemes spell the text they were cut from. -/
theorem spell_lexemesAfter (skip : Nat) (cs : List Char) :
    Lexeme.spell (lexemesAfter skip cs) = cs.drop skip := by
  induction cs generalizing skip with
  | nil => cases skip <;> rfl
  | cons c cs ih =>
    cases skip with
    | zero =>
      have h := ih (munch c cs).2
      simp only [Lexeme.spell] at h
      simp [lexemesAfter, Lexeme.spell, h]
    | succ skip => simpa [lexemesAfter] using ih skip

theorem spell_lexemes (cs : List Char) : Lexeme.spell (lexemes cs) = cs := by
  simpa [lexemes] using spell_lexemesAfter 0 cs

end MethodSkeleton
