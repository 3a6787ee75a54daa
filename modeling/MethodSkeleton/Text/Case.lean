/-
# `MethodSkeleton.Text.Case` — upper and lower case

Case changes are those of Unicode for texts without a language: one character may become
several, and a capital sigma at the end of a word becomes the final form.  ASCII is decided
without the tables.
-/
import MethodSkeleton.Source.IdentifierChar
import MethodSkeleton.Text.CaseTables

namespace MethodSkeleton

/-- The character that lies `shift` away from `c`. -/
def shifted (c : Char) (shift : Int) : Char := Char.ofNat (Int.ofNat c.toNat + shift).toNat

/-- Whether a stretch covers the code point `n`. -/
def CaseStretch.covers (s : CaseStretch) (n : Nat) : Bool :=
  s.first ≤ n && n ≤ s.last && (n - s.first) % s.step == 0

/-- The other case of `c`, as the given tables have it. -/
def mapCase (stretches : List CaseStretch) (expansions : List (Nat × List Nat)) (c : Char) :
    List Char :=
  match expansions.lookup c.toNat with
  | some ns => ns.map Char.ofNat
  | none =>
    match stretches.find? (·.covers c.toNat) with
    | some s => [shifted c s.shift]
    | none => [c]

/-- The upper case of a character. -/
def upperChar (c : Char) : List Char :=
  if c.toNat < 128 then [c.toUpper] else mapCase upperStretches upperExpansions c

/-- The lower case of a character, wherever it stands. -/
def lowerChar (c : Char) : List Char :=
  if c.toNat < 128 then [c.toLower] else mapCase lowerStretches lowerExpansions c

/-- Whether a character has case. -/
def isCased (c : Char) : Bool :=
  if c.toNat < 128 then c.isAlpha else inRanges casedRanges c.toNat

/-- Whether a character is passed over in search of a cased neighbour. -/
def isCaseIgnorable (c : Char) : Bool := inRanges caseIgnorableRanges c.toNat

/-- Whether the first character that counts has case. -/
def meetsCased (cs : List Char) : Bool :=
  ((cs.dropWhile isCaseIgnorable).head?.map isCased).getD false

/-- The lower case of a text of which `before` — the nearest first — precedes it. -/
def lowerBehind (before : List Char) : List Char → List Char
  | [] => []
  | c :: cs =>
    (if c = 'Σ' then
      if meetsCased before && !meetsCased cs then ['ς'] else ['σ']
    else lowerChar c) ++ lowerBehind (c :: before) cs

/-- The upper case of a text. -/
def upperText (s : String) : String := String.ofList (s.toList.flatMap upperChar)

/-- The lower case of a text. -/
def lowerText (s : String) : String := String.ofList (lowerBehind [] s.toList)

/-- A text with its first character in upper case. -/
def capitalized (s : String) : String :=
  match s.toList with
  | [] => ""
  | c :: cs => String.ofList (upperChar c ++ cs)

end MethodSkeleton
