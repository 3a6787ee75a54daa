/-
# `MethodSkeleton.Text.Integer` — what readers of integers share

A number may begin with a sign, and an integer has to fit into 64 bits.
-/

namespace MethodSkeleton

/-- Whether a number has a minus, and what follows its sign, if it has one. -/
def numberSign : List Char → Bool × List Char
  | '-' :: cs => (true, cs)
  | '+' :: cs => (false, cs)
  | cs => (false, cs)

/-- Whether an integer fits into 64 bits. -/
def fitsInt64 (i : Int) : Bool := Int64.minValue.toInt ≤ i && i ≤ Int64.maxValue.toInt

end MethodSkeleton
