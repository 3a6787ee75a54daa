/-
# `MethodSkeleton.Proofs.Source.Places` — where the lexemes of a text stand

A span of a text is given by what stands in front of it and by what stands in it, both counted in
bytes (`IsSlice`), so that its two ends always lie between characters.  The lexemes of a text stand
in such spans, one directly behind the other (`isSlice_locate`, `pairwise_locate`); where a list of
them is split, the second part begins where the first one ends (`locate_append`).
-/
import MethodSkeleton.Proofs.Result
import MethodSkeleton.Proofs.Source.Reread

namespace MethodSkeleton

/-! ## Slices -/

/-- The span is that of `text` in the source, with `after` behind it. -/
def IsSlice (source : List Char) (span : Span) (text after : List Char) : Prop :=
  ∃ before, source = before ++ text ++ after ∧
    span = ⟨byteWidth before, byteWidth (before ++ text)⟩

theorem byteWidth_eq_zero_iff {cs : List Char} : byteWidth cs = 0 ↔ cs = [] := by
  cases cs with
  | nil => exact iff_of_true rfl rfl
  | cons c cs =>
      have hpos := c.utf8Size_pos
      refine iff_of_false ?_ (List.cons_ne_nil c cs)
      rw [byteWidth]
      omega

/-- Two fronts of a text with the same number of bytes are the same. -/
theorem append_inj_of_byteWidth {s t u v : List Char} (h : s ++ u = t ++ v)
    (hw : byteWidth s = byteWidth t) : s = t ∧ u = v := by
  have hempty : ∀ {cs more : List Char}, byteWidth (cs ++ more) = byteWidth cs → more = [] := by
    intro cs more hsame
    rw [byteWidth_append] at hsame
    exact byteWidth_eq_zero_iff.mp (Nat.add_eq_left.mp hsame)
  rcases List.append_eq_append_iff.mp h with ⟨more, rfl, rfl⟩ | ⟨more, rfl, rfl⟩
  · simp [hempty hw.symm]
  · simp [hempty hw]

/-! ## Located lexemes -/

theorem locate_append (position : Nat) (xs ys : List Lexeme) :
    Lexeme.locate position (xs ++ ys) = Lexeme.locate position xs ++
      Lexeme.locate (position + byteWidth (Lexeme.spell xs)) ys := by
  induction xs generalizing position with
  | nil => rfl
  | cons x xs ih =>
      rw [List.cons_append, Lexeme.locate, Lexeme.locate, ih, spell_cons, byteWidth_append,
        Nat.add_assoc]
      rfl

/-- Every lexeme stands in its span. -/
theorem isSlice_locate {before : List Char} {xs : List Lexeme} :
    ∀ x ∈ Lexeme.locate (byteWidth before) xs,
      ∃ after, IsSlice (before ++ Lexeme.spell xs) x.span x.value.text after := by
  induction xs generalizing before with
  | nil => simp [Lexeme.locate]
  | cons x xs ih =>
      have hbehind := @ih (before ++ x.text)
      rw [byteWidth_append, List.append_assoc] at hbehind
      refine List.forall_mem_cons.mpr ⟨⟨Lexeme.spell xs, before, ?_, ?_⟩, hbehind⟩
      · rw [List.append_assoc, spell_cons]
      · rw [byteWidth_append]

theorem le_start_of_mem_locate {position : Nat} {xs : List Lexeme} {x : Located Lexeme}
    (h : x ∈ Lexeme.locate position xs) : position ≤ x.span.start := by
  induction xs generalizing position with
  | nil => simp [Lexeme.locate] at h
  | cons y xs ih =>
      rcases List.mem_cons.mp h with rfl | h
      · exact Nat.le_refl _
      · exact Nat.le_of_add_right_le (ih h)

/-- Lexemes stand one behind the other. -/
theorem pairwise_locate (position : Nat) (xs : List Lexeme) :
    (Lexeme.locate position xs).Pairwise fun x y => x.span.stop ≤ y.span.start := by
  induction xs generalizing position with
  | nil => exact .nil
  | cons x xs ih => exact .cons (fun y hy => le_start_of_mem_locate hy) (ih _)

theorem value_mem_of_mem_locate {position : Nat} {xs : List Lexeme} {x : Located Lexeme}
    (h : x ∈ Lexeme.locate position xs) : x.value ∈ xs := by
  induction xs generalizing position with
  | nil => simp [Lexeme.locate] at h
  | cons y xs ih =>
      rcases List.mem_cons.mp h with rfl | h
      · exact List.mem_cons_self
      · exact List.mem_cons_of_mem y (ih h)

/-- No two lexemes stand at the same place. -/
theorem nodup_span_locate {position : Nat} {xs : List Lexeme} (hx : ∀ x ∈ xs, x.text ≠ []) :
    ((Lexeme.locate position xs).map (·.span)).Nodup := by
  induction xs generalizing position with
  | nil => exact .nil
  | cons x xs ih =>
      obtain ⟨hne, hxs⟩ := List.forall_mem_cons.mp hx
      rw [Lexeme.locate, List.map_cons, List.nodup_cons]
      refine ⟨fun hmem => ?_, ih hxs⟩
      obtain ⟨y, hy, hspan⟩ := List.mem_map.mp hmem
      have hle := le_start_of_mem_locate hy
      rw [hspan] at hle
      exact hne (byteWidth_eq_zero_iff.mp (Nat.add_eq_left.mp (Nat.le_antisymm hle (by simp))))

/-- A token stands where its lexeme does. -/
theorem span_sublist_of_rawTokensOf {xs : List (Located Lexeme)} {ts : List (Located RawToken)}
    (h : rawTokensOf xs = .ok ts) : (ts.map (·.span)).Sublist (xs.map (·.span)) := by
  induction xs generalizing ts with
  | nil =>
      cases h
      exact .slnil
  | cons x xs ih =>
      rw [rawTokensOf] at h
      cases his : x.value.is with
      | fault why =>
          simp only [his] at h
          cases h
      | blank =>
          simp only [his] at h
          exact (ih h).cons x.span
      | token kind =>
          simp only [his] at h
          obtain ⟨us, hus, rfl⟩ := map_ok_iff.mp h
          exact (ih hus).cons_cons x.span

end MethodSkeleton
