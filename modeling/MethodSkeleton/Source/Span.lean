/-
# `MethodSkeleton.Source.Span` — places in a text

Positions count the bytes of the text's UTF-8 encoding, which is the unit in which
every error and every token reports where it stands.  Texts themselves are lists of
characters, so a position is always the width of some leading part of the list.
-/

namespace MethodSkeleton

/-- The bytes from `start` up to, and without, `stop`. -/
structure Span where
  start : Nat
  stop : Nat
deriving DecidableEq, Repr

/-- The empty span at a position. -/
def Span.at (position : Nat) : Span := ⟨position, position⟩

/-- How a span is written in a message. -/
def Span.render (s : Span) : String := toString s.start ++ ".." ++ toString s.stop

/-- A value together with the place in the source that it was read from. -/
structure Located (α : Type) where
  span : Span
  value : α
deriving DecidableEq, Repr

/-- The number of bytes a text takes in UTF-8. -/
def byteWidth : List Char → Nat
  | [] => 0
  | c :: cs => c.utf8Size + byteWidth cs

@[simp] theorem byteWidth_append (s t : List Char) :
    byteWidth (s ++ t) = byteWidth s + byteWidth t := by
  induction s with
  | nil => simp [byteWidth]
  | cons c s ih => simp [byteWidth, ih, Nat.add_assoc]

end MethodSkeleton
