/-
# `MethodSkeleton.Proofs.Source.Lookahead` — when another text behind makes no difference

What stands behind a lexeme is looked at in two ways only: its first character may go on with a
run, and a longer fixed spelling may fit.  So a lexeme that stands before a text stands before every
other text that shows it nothing new in these two respects (`ShowsNothingNew`,
`StandsBefore.of_showsNothingNew`).

The lexemes of a text that can be read are therefore those of its front as well, if it is cut off
where a lexeme ends (`lexemes_of_cut`); and if no spelling goes on with the last character of that
front, then they come out the same in front of any text (`lexemes_of_close`), because what might be
spelled over the end of the front would have to hold that character.
-/
import MethodSkeleton.Proofs.Source.Fusing
import MethodSkeleton.Proofs.Source.Reread

namespace MethodSkeleton

/-! ## Nothing new behind a lexeme -/

/-- In place of `u`, the text `v` shows the lexeme nothing new: it begins with no character of a
kind that `u` does not begin with, and no fixed spelling fits that does not fit in front of `u`. -/
structure ShowsNothingNew (x : Lexeme) (u v : List Char) : Prop where
  head : ∀ p : Char → Bool, u.head?.any p = false → v.head?.any p = false
  spelling : ∀ e ∈ punctuation, e.1 <+: x.text ++ v → e.1 <+: x.text ++ u

section
variable {x : Lexeme} {c : Char} {tail u v : List Char}

theorem ShowsNothingNew.head_ne (h : ShowsNothingNew x u v) {d : Char} (hu : u.head? ≠ some d) :
    v.head? ≠ some d := by
  have hany : ∀ cs : List Char, cs.head?.any (· == d) = false ↔ cs.head? ≠ some d := by
    intro cs
    cases cs <;> simp
  exact (hany v).mp (h.head _ ((hany u).mpr hu))

/-- What stands at the head of the text behind a character, if it is not looked for behind the
lexeme. -/
theorem head?_append_ne (h : ShowsNothingNew x u v) {d : Char}
    (hu : (tail ++ u).head? ≠ some d) : (tail ++ v).head? ≠ some d := by
  cases tail with
  | nil => exact h.head_ne hu
  | cons t tail => exact hu

theorem punctuation?_of_showsNothingNew {kind : Kind} {spelling : List Char}
    (h : ShowsNothingNew x u v) (hx : x.text = c :: tail)
    (hp : punctuation? (c :: (tail ++ u)) = some (spelling, kind))
    (hn : tail.length = spelling.length - 1) :
    punctuation? (c :: (tail ++ v)) = some (spelling, kind) := by
  have hspelling := h.spelling
  rw [hx] at hspelling
  have htext : spelling = c :: tail := punctuation?_text hp hn
  obtain ⟨he, _, hmax⟩ := punctuation?_eq_some_iff.mp hp
  refine punctuation?_eq_some_iff.mpr ⟨he, ?_, fun f hf hfp => hmax f hf (hspelling f hf hfp)⟩
  rw [htext]
  exact List.prefix_append _ _

/-- What is read as a token in front of one text is read as it in front of the other. -/
theorem Reads.of_showsNothingNew {kind : Kind}
    (h : Reads c (tail ++ u) (.token kind) tail.length)
    (hnew : ShowsNothingNew ⟨.token kind, c :: tail⟩ u v) :
    Reads c (tail ++ v) (.token kind) tail.length := by
  generalize hn : tail.length = n at h
  cases h with
  | lineFeed hc => exact .lineFeed hc
  | carriageReturn hc =>
      have hlength : tail.length = if (tail ++ v).head? = some '\n' then 1 else 0 := by
        cases tail with
        | nil =>
            have hu : u.head? ≠ some '\n' := by
              intro hu
              simp [hu] at hn
            have hv := hnew.head_ne hu
            simp [hv]
        | cons d tail => exact hn
      rw [← hn, hlength]
      exact .carriageReturn hc
  | lineComment hc hh =>
      obtain ⟨hall, hend⟩ := runLength_append_eq_length_iff.mp hn.symm
      cases tail with
      | nil =>
          -- the second slash would be left over
          obtain ⟨rest, rfl⟩ := List.head?_eq_some_iff.mp hh
          cases hend
      | cons d tail =>
          rw [← hn, ← runLength_append_eq_length_iff.mpr ⟨hall, hnew.head _ hend⟩]
          exact .lineComment hc hh
  | blockComment hc hh hb =>
      cases tail with
      | nil => cases hn
      | cons d tail =>
          cases hn
          refine .blockComment hc hh ?_
          exact blockCommentLength_append_iff.mpr (blockCommentLength_append_iff.mp hb)
  | identifier hc =>
      obtain ⟨hall, hend⟩ := runLength_append_eq_length_iff.mp hn.symm
      rw [← hn, ← runLength_append_eq_length_iff.mpr ⟨hall, hnew.head _ hend⟩]
      exact .identifier hc
  | number hc =>
      obtain ⟨hall, hend, hpoint⟩ := numberLength_append_eq_length_iff.mp hn.symm
      rw [← hn, ← numberLength_append_eq_length_iff.mpr ⟨hall, hnew.head _ hend,
        hpoint.imp_right (hnew.head_ne)⟩]
      exact .number hc
  | rawString hc hl =>
      subst hn
      exact .rawString hc (rawLength_append_iff.mpr (rawLength_append_iff.mp hl))
  | string hc hl =>
      subst hn
      exact .string hc
        ((quoteEnd_append_iff (by decide)).mpr ((quoteEnd_append_iff (by decide)).mp hl))
  | rune hc hl hne =>
      subst hn
      exact .rune hc
        ((quoteEnd_append_iff (by decide)).mpr ((quoteEnd_append_iff (by decide)).mp hl)) hne
  | fixed hslash hp =>
      refine .fixed (fun hc => ?_) (punctuation?_of_showsNothingNew hnew rfl hp hn)
      obtain ⟨hs, hstar⟩ := hslash hc
      exact ⟨head?_append_ne hnew hs, head?_append_ne hnew hstar⟩

/-- **Only what is new can make a difference.** -/
theorem StandsBefore.of_showsNothingNew (h : StandsBefore x u) (hx : x.Readable)
    (hnew : ShowsNothingNew x u v) : StandsBefore x v := by
  obtain ⟨is, text⟩ := x
  obtain ⟨c, tail, ht, hm⟩ := h
  obtain rfl : text = c :: tail := ht
  refine ⟨c, tail, rfl, ?_⟩
  cases is with
  | blank =>
      have hc := isBlank_of_munch hm
      rw [munch, if_pos hc] at hm ⊢
      obtain ⟨hall, hend⟩ := runLength_append_eq_length_iff.mp (Prod.mk.inj hm).2
      exact congrArg _ (runLength_append_eq_length_iff.mpr ⟨hall, hnew.head _ hend⟩)
  | token kind => exact ((Reads.of_munch hm).of_showsNothingNew hnew).munch_eq
  | fault why => exact absurd rfl (hx why)

end

/-! ## A text cut off -/

/-- The end of the text shows nothing new. -/
theorem showsNothingNew_cut (x : Lexeme) (u after : List Char) :
    ShowsNothingNew x (u ++ after) u where
  head := by
    intro p h
    cases u with
    | nil => rfl
    | cons c u => exact h
  spelling := fun e _ he => he.trans (by
    rw [← List.append_assoc]
    exact List.prefix_append _ _)

/-- The lexemes in front of a place where a lexeme ends are those of the text that is cut off
there. -/
theorem lexemes_of_cut {xs ys : List Lexeme} {after : List Char}
    (h : lexemes (Lexeme.spell xs ++ after) = xs ++ ys) (hread : ∀ x ∈ xs, x.Readable) :
    lexemes (Lexeme.spell xs) = xs := by
  induction xs with
  | nil => rfl
  | cons x xs ih =>
      rw [spell_cons, List.append_assoc, List.cons_append, lexemes_eq_cons_iff] at h
      obtain ⟨rest, hrest, hstand, hxs⟩ := h
      obtain rfl : Lexeme.spell xs ++ after = rest := List.append_cancel_left hrest
      obtain ⟨hx, hread⟩ := List.forall_mem_cons.mp hread
      have hstand' := hstand.of_showsNothingNew hx (showsNothingNew_cut x _ after)
      rw [spell_cons, hstand'.lexemes_eq, ih hxs hread]

/-! ## A text gone on with in another way -/

/-- Behind a character that no spelling goes on with, there is nothing new to show. -/
theorem showsNothingNew_close {x : Lexeme} (hx : x.text ≠ []) {behind : List Char} {d : Char}
    (hd : goesOn d = false) (after v : List Char) :
    ShowsNothingNew x (behind ++ d :: after) (behind ++ d :: v) where
  head := by
    intro p h
    cases behind with
    | nil => exact h
    | cons c behind => exact h
  spelling := fun e he hp =>
    (prefix_of_not_goesOn he hx hd hp).trans (by
      rw [← List.append_assoc]
      exact List.prefix_append _ _)

/-- **Scanning is settled at a closing character.**  If a text can be read up to a lexeme that
stands before anything, and no spelling goes on with the character that this lexeme is, then so far
every text that begins in the same way is cut into the same lexemes. -/
theorem lexemes_of_close {xs ys : List Lexeme} {x : Lexeme} {d : Char} {after : List Char}
    (h : lexemes (Lexeme.spell (xs ++ [x]) ++ after) = xs ++ x :: ys)
    (hread : ∀ y ∈ xs, y.Readable) (hx : x.text = [d]) (hd : goesOn d = false)
    (hstand : ∀ rest, StandsBefore x rest) (v : List Char) :
    lexemes (Lexeme.spell (xs ++ [x]) ++ v) = xs ++ x :: lexemes v := by
  have hspell : ∀ (zs : List Lexeme) (w : List Char),
      Lexeme.spell (zs ++ [x]) ++ w = Lexeme.spell zs ++ d :: w := by
    intro zs w
    rw [spell_append, spell_cons, hx, List.append_assoc]
    rfl
  induction xs with
  | nil =>
      rw [List.nil_append, spell_cons, List.append_assoc]
      exact (hstand v).lexemes_eq
  | cons y xs ih =>
      rw [List.cons_append, spell_cons, List.append_assoc, List.cons_append,
        lexemes_eq_cons_iff] at h
      obtain ⟨rest, hrest, hy, hxs⟩ := h
      obtain rfl := List.append_cancel_left hrest
      obtain ⟨hyread, hread⟩ := List.forall_mem_cons.mp hread
      have hne : y.text ≠ [] := by
        obtain ⟨c, tail, ht, _⟩ := hy
        rw [ht]
        exact List.cons_ne_nil c tail
      have hstand' : StandsBefore y (Lexeme.spell (xs ++ [x]) ++ v) := by
        rw [hspell] at hy ⊢
        exact hy.of_showsNothingNew hyread (showsNothingNew_close hne hd after v)
      rw [List.cons_append, spell_cons, List.append_assoc, hstand'.lexemes_eq, ih hxs hread]
      rfl

end MethodSkeleton
