/-
# `MethodSkeleton.Proofs.Layout.Front` — reading back the front of a page

A page need not be read back as a whole to be read back as far as a signature goes.  What is asked
for here is asked up to a number of tokens, in the signature's sense: up to the last of them every
lexeme stands before what is behind it (`StandsUpTo`).  Then the text of the page begins with that
many of the page's tokens, whatever becomes of the rest (`StandsUpTo.take_eq`).

On a page of rows only the tokens on the rows are in question, and only what is behind them on
their own row: if up to the last of the tokens none fuses with that (`KeepsApart`), the page stands
up to there (`standsUpTo_pageLexemes`).
-/
import MethodSkeleton.Proofs.Layout.Tokens
import MethodSkeleton.Signature.Token

namespace MethodSkeleton

/-! ## Lexemes -/

/-- Up to the `n`-th token, every lexeme stands before those behind it. -/
inductive StandsUpTo : Nat → List Lexeme → Prop
  | reached (xs : List Lexeme) : StandsUpTo 0 xs
  | ended (n : Nat) : StandsUpTo n []
  | token {n : Nat} {x : Lexeme} {xs : List Lexeme} {t : Token} : Token.ofLexeme? x = some t →
      StandsBefore x (Lexeme.spell xs) → StandsUpTo n xs → StandsUpTo (n + 1) (x :: xs)
  | other {n : Nat} {x : Lexeme} {xs : List Lexeme} : Token.ofLexeme? x = none →
      StandsBefore x (Lexeme.spell xs) → StandsUpTo n xs → StandsUpTo n (x :: xs)

/-- Up to the `n`-th token, a text has the tokens that were written. -/
theorem StandsUpTo.take_eq {n : Nat} {xs : List Lexeme} (h : StandsUpTo n xs) :
    ((lexemes (Lexeme.spell xs)).filterMap Token.ofLexeme?).take n =
      (xs.filterMap Token.ofLexeme?).take n := by
  induction h with
  | reached => rw [List.take_zero, List.take_zero]
  | ended => rfl
  | token ht hstand _ ih =>
      rw [spell_cons, hstand.lexemes_eq, List.filterMap_cons_some ht, List.filterMap_cons_some ht,
        List.take_succ_cons, List.take_succ_cons, ih]
  | other ht hstand _ ih =>
      rw [spell_cons, hstand.lexemes_eq, List.filterMap_cons_none ht, List.filterMap_cons_none ht,
        ih]

section
variable {n : Nat} {xs : List Lexeme}

theorem StandsUpTo.lineFeed (h : StandsUpTo n xs) : StandsUpTo n (lineFeed :: xs) :=
  .other rfl (standsBefore_lineFeed _) h

theorem StandsUpTo.blank {b : List Char} (hb : b ≠ []) (hall : ∀ c ∈ b, isBlank c = true)
    (hxs : (Lexeme.spell xs).head?.any isBlank = false) (h : StandsUpTo n xs) :
    StandsUpTo n (⟨.blank, b⟩ :: xs) :=
  .other rfl (standsBefore_blank hb hall hxs) h

end

/-! ## Rows -/

/-- The number of tokens of a row that a signature sees. -/
def seen (xs : List SetPiece) : Nat := (xs.filterMap fun x => Token.ofLexeme? x.lexeme).length

/-- No token of a row up to the `n`-th fuses with what is written behind it on the row. -/
def RowKeepsApart (n : Nat) (xs : List SetPiece) : Prop :=
  ∀ before x after, xs = before ++ x :: after → seen before < n →
    ¬ Fuses x.piece.text ((after.map SetPiece.word).flatMap Word.render)

/-- No token up to the `n`-th fuses with what is written behind it on its row. -/
def KeepsApart (n : Nat) (rows : List SetRow) : Prop :=
  ∀ above r below, rows = above ++ r :: below →
    RowKeepsApart (n - seen (above.flatMap (·.pieces))) r.pieces

theorem seen_append (xs ys : List SetPiece) : seen (xs ++ ys) = seen xs + seen ys := by
  rw [seen, List.filterMap_append, List.length_append]
  rfl

theorem RowKeepsApart.head {n : Nat} {x : SetPiece} {xs : List SetPiece}
    (h : RowKeepsApart (n + 1) (x :: xs)) :
    ¬ Fuses x.piece.text ((xs.map SetPiece.word).flatMap Word.render) :=
  h [] x xs rfl (Nat.succ_pos n)

theorem RowKeepsApart.tail {n m : Nat} {x : SetPiece} {xs : List SetPiece}
    (h : RowKeepsApart n (x :: xs)) (hm : m + seen [x] ≤ n) : RowKeepsApart m xs := by
  intro before y after hxs hlt
  refine h (x :: before) y after (by rw [hxs]; rfl) ?_
  have hseen : seen (x :: before) = seen [x] + seen before := seen_append [x] before
  omega

theorem KeepsApart.head {n : Nat} {r : SetRow} {rows : List SetRow}
    (h : KeepsApart n (r :: rows)) : RowKeepsApart n r.pieces :=
  h [] r rows rfl

theorem KeepsApart.tail {n : Nat} {r : SetRow} {rows : List SetRow}
    (h : KeepsApart n (r :: rows)) : KeepsApart (n - seen r.pieces) rows := by
  intro above s below hrows
  have hrow := h (r :: above) s below (by rw [hrows]; rfl)
  rwa [List.flatMap_cons, seen_append, ← Nat.sub_sub] at hrow

/-- A row stands up to a token if what is behind the row does. -/
theorem Laid.standsUpTo {n : Nat} {xs : List SetPiece} (h : Laid xs) {after : List Lexeme}
    (ha : EndsLine (Lexeme.spell after)) (hapart : RowKeepsApart n xs)
    (hafter : StandsUpTo (n - seen xs) after) :
    StandsUpTo n (xs.flatMap SetPiece.lexemes ++ after) := by
  induction xs generalizing n with
  | nil => exact hafter
  | cons x xs ih =>
      cases n with
      | zero => exact .reached _
      | succ n =>
          have hstand := (h.standsBefore_iff ha).mpr hapart.head
          have hseen : seen (x :: xs) = seen [x] + seen xs := seen_append [x] xs
          have htoken : StandsUpTo (n + 1)
              (x.lexeme :: (xs.flatMap SetPiece.lexemes ++ after)) := by
            cases ht : Token.ofLexeme? x.lexeme with
            | none =>
                have hone : seen [x] = 0 := by simp [seen, ht]
                rw [hseen, hone, Nat.zero_add] at hafter
                exact .other ht hstand (ih h.tail (hapart.tail (by omega)) hafter)
            | some t =>
                have hone : seen [x] = 1 := by simp [seen, ht]
                rw [hseen, hone, Nat.add_comm 1, Nat.succ_sub_succ] at hafter
                exact .token ht hstand (ih h.tail (hapart.tail (by omega)) hafter)
          rw [List.flatMap_cons, List.append_assoc, SetPiece.lexemes]
          split
          · exact htoken.blank (by simp) (by simp [isBlank]) h.legible.isToken.not_blank
          · exact htoken

theorem standsUpTo_row {n : Nat} {r : SetRow} {after : List Lexeme} (h : Laid r.pieces)
    (hs : r.pieces.head?.all (!·.spaced) = true) (ha : EndsLine (Lexeme.spell after))
    (hapart : RowKeepsApart n r.pieces) (hafter : StandsUpTo (n - seen r.pieces) after) :
    StandsUpTo n (r.lexemes ++ after) := by
  have hrow := h.standsUpTo ha hapart hafter
  rw [SetRow.lexemes, List.append_assoc, indentLexemes]
  split
  · exact hrow
  · rename_i hd
    refine hrow.blank (by simpa using hd) ?_ (h.not_blank hs ha)
    intro c hc
    rw [List.eq_of_mem_replicate hc]
    rfl

/-! ## Pages -/

theorem standsUpTo_belowLexemes {n : Nat} {closed : Bool} {rows : List SetRow} (h : AllLaid rows)
    (hapart : KeepsApart n rows) : StandsUpTo n (belowLexemes closed rows) := by
  induction rows generalizing n with
  | nil =>
      cases closed with
      | false => exact .ended n
      | true => exact (StandsUpTo.ended n).lineFeed
  | cons r rows ih =>
      obtain ⟨⟨hr, hs⟩, hrows⟩ := List.forall_mem_cons.mp h
      have hrow := standsUpTo_row hr hs (endsLine_belowLexemes closed rows) hapart.head
        (ih hrows hapart.tail)
      rw [belowLexemes]
      split
      · exact hrow.lineFeed.lineFeed
      · exact hrow.lineFeed

/-- A page stands up to a token if no token up to it fuses with what is behind it on its row. -/
theorem standsUpTo_pageLexemes {n : Nat} {closed : Bool} {rows : List SetRow} (h : AllLaid rows)
    (hapart : KeepsApart n rows) : StandsUpTo n (pageLexemes closed rows) := by
  cases rows with
  | nil => exact .ended n
  | cons r rows =>
      obtain ⟨⟨hr, hs⟩, hrows⟩ := List.forall_mem_cons.mp h
      exact standsUpTo_row hr hs (endsLine_belowLexemes closed rows) hapart.head
        (standsUpTo_belowLexemes hrows hapart.tail)

end MethodSkeleton
