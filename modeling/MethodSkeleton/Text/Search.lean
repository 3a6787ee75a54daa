/-
# `MethodSkeleton.Text.Search` — texts inside texts

Cutting a text at every occurrence of a pattern, found from the left and without overlap,
is the one operation; replacing a pattern is joining the parts with something else.  The
empty pattern occurs around every character, so it cuts a text into its characters with an
empty part at either end.
-/

namespace MethodSkeleton

/-- The parts between the occurrences of a pattern that is not empty, after skipping the
first `skip` characters. -/
def splitAfter (pattern : List Char) : Nat → List Char → List (List Char)
  | _, [] => [[]]
  | skip + 1, _ :: cs => splitAfter pattern skip cs
  | 0, c :: cs =>
    if pattern.isPrefixOf (c :: cs) then [] :: splitAfter pattern (pattern.length - 1) cs
    else
      match splitAfter pattern 0 cs with
      | [] => [[c]]
      | part :: parts => (c :: part) :: parts

/-- The parts of a text between the occurrences of a pattern. -/
def splitChars (pattern cs : List Char) : List (List Char) :=
  if pattern = [] then [] :: cs.map ([·]) ++ [[]] else splitAfter pattern 0 cs

/-- The parts of a text between the occurrences of a pattern. -/
def splitText (pattern s : String) : List String :=
  (splitChars pattern.toList s.toList).map String.ofList

/-- A text with every occurrence of a pattern replaced. -/
def replaceText (pattern new s : String) : String :=
  String.ofList (new.toList.intercalate (splitChars pattern.toList s.toList))

/-- Whether a pattern occurs in a list of characters. -/
def occursIn (pattern : List Char) : List Char → Bool
  | [] => pattern.isEmpty
  | c :: cs => pattern.isPrefixOf (c :: cs) || occursIn pattern cs

/-- Whether a pattern occurs in a text. -/
def containsText (s pattern : String) : Bool := occursIn pattern.toList s.toList

/-- Whether a character is white space, in Unicode's sense. -/
def isWhiteSpace (c : Char) : Bool :=
  let n := c.toNat
  (0x9 ≤ n && n ≤ 0xD) || n == 0x20 || n == 0x85 || n == 0xA0 || n == 0x1680 ||
    (0x2000 ≤ n && n ≤ 0x200A) || n == 0x2028 || n == 0x2029 || n == 0x202F || n == 0x205F ||
    n == 0x3000

/-- A text without the white space at its ends. -/
def stripped (s : String) : String :=
  String.ofList (((s.toList.dropWhile isWhiteSpace).reverse.dropWhile isWhiteSpace).reverse)

end MethodSkeleton
