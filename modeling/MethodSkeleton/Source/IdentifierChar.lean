/-
# `MethodSkeleton.Source.IdentifierChar` — what an identifier is made of

An identifier starts with `_` or a character of Unicode's `XID_Start` and goes on with
characters of `XID_Continue`.  ASCII is decided without the tables, which keeps the
common case cheap and lets a proof about ASCII text compute.
-/
import MethodSkeleton.Source.IdentifierRanges

namespace MethodSkeleton

/-- Whether the code point `n` lies in one of the closed ranges. -/
def inRanges (ranges : List (Nat × Nat)) (n : Nat) : Bool :=
  ranges.any fun r => r.1 ≤ n && n ≤ r.2

/-- Whether `c` may begin an identifier. -/
def isIdentifierStart (c : Char) : Bool :=
  if c.toNat < 128 then c.isAlpha || c == '_'
  else inRanges identifierStartRanges c.toNat

/-- Whether `c` may stand inside an identifier after its first character. -/
def isIdentifierPart (c : Char) : Bool :=
  isIdentifierStart c ||
    if c.toNat < 128 then c.isDigit
    else inRanges identifierPartRanges c.toNat

theorem isIdentifierPart_of_start {c : Char} (h : isIdentifierStart c = true) :
    isIdentifierPart c = true := by
  simp [isIdentifierPart, h]

end MethodSkeleton
