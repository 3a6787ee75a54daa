/-
# `MethodSkeleton.Signature.TokenStream` — drawing tokens one at a time

A stream is the part of a text that has not been read yet, the position at which it begins,
the length of the whole text, and whether its end has been answered.  Drawing from it skips
what is no token.  The draw that finds nothing more marks the stream as ended; that one and
all later ones answer the end of input, at the length of the text.

The items of a stream are its tokens without the end of input.  Whatever takes all of them
draws item after item until there is none.
-/
import MethodSkeleton.Signature.Token

namespace MethodSkeleton

/-- What is left of a text, cut into lexemes, and where it begins; how long the whole text is,
and whether its end has been answered. -/
structure TokenStream where
  rest : List Lexeme
  position : Nat
  length : Nat
  ended : Bool
deriving DecidableEq, Repr

namespace TokenStream

/-- The stream over a whole text. -/
def ofString (source : String) : TokenStream :=
  ⟨lexemes source.toList, 0, byteWidth source.toList, false⟩

/-- The next token among lexemes that begin at `position`; behind the last one the end of a
text of that length. -/
def draw (length : Nat) : List Lexeme → Nat → Located Token × TokenStream
  | [], position => (endAt length, ⟨[], position, length, true⟩)
  | x :: xs, position =>
    let stop := position + byteWidth x.text
    match Token.ofLexeme? x with
    | some t => (⟨⟨position, stop⟩, t⟩, ⟨xs, stop, length, false⟩)
    | none => draw length xs stop

/-- The next token, or the end of input if there is none, and the stream behind it. -/
def next (s : TokenStream) : Located Token × TokenStream :=
  if s.ended then (endAt s.length, s) else draw s.length s.rest s.position

/-- The next item, if there is one, and the stream behind it. -/
def next? (s : TokenStream) : Option (Located Token) × TokenStream :=
  let (t, s) := s.next
  if t.value = .endOfInput then (none, s) else (some t, s)

/-- A draw that gives a token takes a lexeme. -/
theorem length_draw_lt {length : Nat} {xs : List Lexeme} {position : Nat} {t : Located Token}
    {s : TokenStream} (h : draw length xs position = (t, s)) (ht : t.value ≠ .endOfInput) :
    s.rest.length < xs.length := by
  induction xs generalizing position with
  | nil =>
    cases h
    exact absurd rfl ht
  | cons x xs ih =>
    cases hx : Token.ofLexeme? x with
    | none =>
      simp only [draw, hx] at h
      exact Nat.lt_succ_of_lt (ih h)
    | some u =>
      simp only [draw, hx] at h
      cases h
      exact Nat.lt_succ_self _

/-- An item is the next token. -/
theorem next_of_next? {s s' : TokenStream} {t : Located Token} (h : s.next? = (some t, s')) :
    s.next = (t, s') ∧ t.value ≠ .endOfInput := by
  simp only [next?] at h
  split at h
  · cases h
  · rename_i hne
    cases h
    exact ⟨rfl, hne⟩

/-- An item takes a lexeme. -/
theorem length_next?_lt {s s' : TokenStream} {t : Located Token} (h : s.next? = (some t, s')) :
    s'.rest.length < s.rest.length := by
  obtain ⟨hnext, ht⟩ := next_of_next? h
  rw [next] at hnext
  split at hnext
  · cases hnext
    exact absurd rfl ht
  · exact length_draw_lt hnext ht

/-- Draws item after item until there is none, and carries a value along. -/
def fold {α : Type} (f : α → Located Token → α) (a : α) (s : TokenStream) : α × TokenStream :=
  match _h : s.next? with
  | (none, s) => (a, s)
  | (some t, s) => fold f (f a t) s
termination_by s.rest.length
decreasing_by exact length_next?_lt _h

/-- All items still to come. -/
def remaining (s : TokenStream) : List (Located Token) := (s.fold Array.push #[]).1.toList

/-- The number of items still to come. -/
def count (s : TokenStream) : Nat := (s.fold (fun n _ => n + 1) 0).1

/-- The stream with all its items drawn. -/
def drained (s : TokenStream) : TokenStream := (s.fold (fun _ _ => ()) ()).2

end TokenStream

end MethodSkeleton
