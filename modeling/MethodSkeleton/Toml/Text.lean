/-
# `MethodSkeleton.Toml.Text` — the four kinds of TOML string

A string is basic or literal — with escapes or without — and stands on one line or on
several.  The readers here begin behind the opening quotes and answer the text and what
follows the closing ones.  As everywhere in this library, a reader that has to take several
characters at once goes on by skipping them.
-/

namespace MethodSkeleton.Toml

/-- Space and tab. -/
def isSpace (c : Char) : Bool := c == ' ' || c == '\t'

/-- The characters that may stand for themselves on a line: no control character but the
tab. -/
def isPlain (c : Char) : Bool :=
  c == '\t' || (' ' ≤ c && c ≤ '~') || 0x80 ≤ c.toNat

/-- What follows a line break. -/
def afterNewline? : List Char → Option (List Char)
  | '\n' :: cs => some cs
  | '\r' :: '\n' :: cs => some cs
  | _ => none

/-- What follows a line break, if there is one. -/
def skipNewline (cs : List Char) : List Char := (afterNewline? cs).getD cs

/-! ## Escapes -/

/-- The value of a hexadecimal digit. -/
def hexValue? (c : Char) : Option Nat :=
  if c.isDigit then some (c.toNat - '0'.toNat)
  else if 'a' ≤ c ∧ c ≤ 'f' then some (c.toNat - 'a'.toNat + 10)
  else if 'A' ≤ c ∧ c ≤ 'F' then some (c.toNat - 'A'.toNat + 10)
  else none

/-- The number that exactly `count` hexadecimal digits write behind `n`. -/
def hexNumber? : Nat → Nat → List Char → Option Nat
  | 0, n, _ => some n
  | _ + 1, _, [] => none
  | count + 1, n, c :: cs => (hexValue? c).bind fun d => hexNumber? count (16 * n + d) cs

/-- The character of a code point, if it is one. -/
def character? (n : Nat) : Option Char := if n.isValidChar then some (Char.ofNat n) else none

/-- The character that an escape writes, and its length behind the backslash. -/
def escape? : List Char → Option (Char × Nat)
  | 'b' :: _ => some ('\x08', 1)
  | 't' :: _ => some ('\t', 1)
  | 'n' :: _ => some ('\n', 1)
  | 'f' :: _ => some ('\x0c', 1)
  | 'r' :: _ => some ('\r', 1)
  | '"' :: _ => some ('"', 1)
  | '\\' :: _ => some ('\\', 1)
  | 'u' :: cs => ((hexNumber? 4 0 cs).bind character?).map (·, 5)
  | 'U' :: cs => ((hexNumber? 8 0 cs).bind character?).map (·, 9)
  | _ => none

/-! ## Strings on one line -/

/-- A text in front of what was read. -/
def prepend (front : List Char) (r : List Char × List Char) : List Char × List Char :=
  (front ++ r.1, r.2)

/-- Reads a basic string after skipping `skip` characters. -/
def basicFrom? : Nat → List Char → Option (List Char × List Char)
  | _, [] => none
  | skip + 1, _ :: cs => basicFrom? skip cs
  | 0, c :: cs =>
    if c = '"' then some ([], cs)
    else if c = '\\' then
      match escape? cs with
      | some (e, n) => (basicFrom? n cs).map (prepend [e])
      | none => none
    else if isPlain c then (basicFrom? 0 cs).map (prepend [c])
    else none

/-- Reads a literal string. -/
def literal? : List Char → Option (List Char × List Char)
  | [] => none
  | c :: cs =>
    if c = '\'' then some ([], cs)
    else if isPlain c then (literal? cs).map (prepend [c])
    else none

/-! ## Strings on several lines -/

/-- The length of white space and line breaks. -/
def gapLength : List Char → Nat
  | '\r' :: '\n' :: cs => gapLength cs + 2
  | c :: cs => if isSpace c || c == '\n' then gapLength cs + 1 else 0
  | [] => 0

/-- The length of what a backslash at the end of a line takes away: the rest of the line,
which is blank, and all white space behind it. -/
def continuationLength? (cs : List Char) : Option Nat :=
  let blank := (cs.takeWhile isSpace).length
  (afterNewline? (cs.drop blank)).map fun _ => gapLength cs

/-- How a run of quotes is taken, by its length: how many of them are text, and whether the
others close the string.  Three close it, and up to two more in front are text. -/
def quoteRun (length : Nat) : Nat × Bool :=
  if length < 3 then (length, false) else (min length 5 - 3, true)

/-- Reads a string on several lines after skipping `skip` characters; `escapes` says whether
backslashes are special. -/
def multilineFrom? (quote : Char) (escapes : Bool) : Nat → List Char →
    Option (List Char × List Char)
  | _, [] => none
  | skip + 1, _ :: cs => multilineFrom? quote escapes skip cs
  | 0, c :: cs =>
    if c = quote then
      let (kept, closes) := quoteRun ((cs.takeWhile (· == quote)).length + 1)
      let text := List.replicate kept quote
      if closes then some (text, cs.drop (kept + 2))
      else (multilineFrom? quote escapes (kept - 1) cs).map (prepend text)
    else if c = '\\' ∧ escapes = true then
      match continuationLength? cs with
      | some n => multilineFrom? quote escapes n cs
      | none =>
        match escape? cs with
        | some (e, n) => (multilineFrom? quote escapes n cs).map (prepend [e])
        | none => none
    else if c = '\n' then (multilineFrom? quote escapes 0 cs).map (prepend ['\n'])
    else if c = '\r' then
      if cs.head? = some '\n' then (multilineFrom? quote escapes 1 cs).map (prepend ['\n'])
      else none
    else if isPlain c then (multilineFrom? quote escapes 0 cs).map (prepend [c])
    else none

/-- Reads a string of any kind, and what follows it. -/
def string? : List Char → Option (String × List Char)
  | '"' :: '"' :: '"' :: cs =>
    (multilineFrom? '"' true 0 (skipNewline cs)).map fun r => (String.ofList r.1, r.2)
  | '\'' :: '\'' :: '\'' :: cs =>
    (multilineFrom? '\'' false 0 (skipNewline cs)).map fun r => (String.ofList r.1, r.2)
  | '"' :: cs => (basicFrom? 0 cs).map fun r => (String.ofList r.1, r.2)
  | '\'' :: cs => (literal? cs).map fun r => (String.ofList r.1, r.2)
  | _ => none

end MethodSkeleton.Toml
