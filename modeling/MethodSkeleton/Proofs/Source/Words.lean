/-
# `MethodSkeleton.Proofs.Source.Words` — words, reserved or not

A text is read as one word if it begins like an identifier and goes on like one (`IsIdentifier`,
`isIdentifier_iff`), and a word that is not reserved can name something (`IsName`).  Both can be
decided by looking at the characters.  Writing more of a word behind a word makes a word; it makes a
name as soon as one character is not in lower case, since all reserved words are.
-/
import MethodSkeleton.Proofs.Source.Spelling

namespace MethodSkeleton

/-- A text that is read as one word, reserved or not. -/
def IsIdentifier (s : String) : Prop := Spells .identifier s.toList

/-- A word that is not reserved. -/
structure IsName (s : String) : Prop where
  identifier : IsIdentifier s
  free : isKeyword s = false

/-- Whether the characters are read as one word. -/
def isWordText : List Char → Bool
  | [] => false
  | c :: tail => isIdentifierStart c && tail.all isIdentifierPart

theorem spells_identifier_iff {cs : List Char} :
    Spells .identifier cs ↔ isWordText cs = true := by
  constructor
  · intro h
    cases h with
    | identifier hc ht => exact (Bool.and_eq_true _ _).mpr ⟨hc, List.all_eq_true.mpr ht⟩
    | fixed he =>
        have hnone : (punctuation.all fun e => e.2 != .identifier) = true := by decide
        have hkind := List.all_eq_true.mp hnone _ he
        cases hkind
  · intro h
    cases cs with
    | nil => cases h
    | cons c tail =>
        obtain ⟨hc, ht⟩ := (Bool.and_eq_true _ _).mp h
        exact .identifier hc (List.all_eq_true.mp ht)

instance (s : String) : Decidable (IsIdentifier s) :=
  decidable_of_iff (isWordText s.toList = true) spells_identifier_iff.symm

instance (s : String) : Decidable (IsName s) :=
  decidable_of_iff (IsIdentifier s ∧ isKeyword s = false)
    ⟨fun h => ⟨h.1, h.2⟩, fun h => ⟨h.identifier, h.free⟩⟩

theorem isIdentifier_iff {s : String} : IsIdentifier s ↔
    ∃ c tail, s.toList = c :: tail ∧ isIdentifierStart c = true ∧
      ∀ d ∈ tail, isIdentifierPart d = true := by
  rw [IsIdentifier, spells_identifier_iff]
  cases s.toList with
  | nil => simp [isWordText]
  | cons c tail => simp [isWordText]

theorem isIdentifierPart_of_isDigit {c : Char} (h : c.isDigit = true) :
    isIdentifierPart c = true := by
  have hc := isDigit_toNat h
  have hlt : c.toNat < 128 := by omega
  simp [isIdentifierPart, hlt, h]

theorem IsIdentifier.forall_part {s : String} (h : IsIdentifier s) :
    ∀ c ∈ s.toList, isIdentifierPart c = true := by
  obtain ⟨c, tail, hs, hc, ht⟩ := isIdentifier_iff.mp h
  rw [hs]
  exact List.forall_mem_cons.mpr ⟨isIdentifierPart_of_start hc, ht⟩

theorem IsIdentifier.ne_empty {s : String} (h : IsIdentifier s) : s ≠ "" := by
  rintro rfl
  obtain ⟨c, tail, hs, _⟩ := isIdentifier_iff.mp h
  cases hs

theorem IsIdentifier.append {s t : String} (hs : IsIdentifier s)
    (ht : ∀ c ∈ t.toList, isIdentifierPart c = true) : IsIdentifier (s ++ t) := by
  obtain ⟨c, tail, hcs, hc, htail⟩ := isIdentifier_iff.mp hs
  refine isIdentifier_iff.mpr ⟨c, tail ++ t.toList, by simp [hcs], hc, ?_⟩
  exact List.forall_mem_append.mpr ⟨htail, ht⟩

/-- Reserved words are written in lower case. -/
theorem isKeyword_eq_false {s : String} {c : Char} (hc : c ∈ s.toList) (hl : c.isLower = false) :
    isKeyword s = false := by
  have hall : (keywords.all fun k => k.toList.all Char.isLower) = true := by decide
  rw [← Bool.not_eq_true]
  intro hs
  have hlower := List.all_eq_true.mp
    (List.all_eq_true.mp hall s (List.contains_iff_mem.mp hs)) c hc
  rw [hl] at hlower
  cases hlower

/-- A name that is made by writing something behind a word. -/
theorem IsIdentifier.isName_append {s t : String} (hs : IsIdentifier s)
    (ht : ∀ c ∈ t.toList, isIdentifierPart c = true)
    (h : ∃ c ∈ s.toList ++ t.toList, c.isLower = false) : IsName (s ++ t) := by
  obtain ⟨c, hc, hl⟩ := h
  exact ⟨hs.append ht, isKeyword_eq_false (String.toList_append ▸ hc) hl⟩

theorem forall_part_toString (i : Nat) :
    ∀ c ∈ (toString i).toList, isIdentifierPart c = true := by
  intro c hc
  exact isIdentifierPart_of_isDigit
    (Nat.isDigit_of_mem_toDigits (b := 10) (n := i) (by decide) (by decide) (by simpa using hc))

/-- A word with an index behind it is a name. -/
theorem isName_indexed {front : String} (h : IsIdentifier front) (i : Nat) :
    IsName (front ++ toString i) := by
  refine h.isName_append (forall_part_toString i) ?_
  obtain ⟨c, tail, hdigits⟩ := List.exists_cons_of_ne_nil (Nat.toDigits_ne_nil (n := i) (b := 10))
  have hc : c.isDigit = true :=
    Nat.isDigit_of_mem_toDigits (n := i) (b := 10) (by decide) (by decide) (by simp [hdigits])
  refine ⟨c, by simp [hdigits], ?_⟩
  have hrange := isDigit_toNat hc
  rw [← Bool.not_eq_true]
  intro hlower
  have hboth : (decide (97 ≤ c.toNat) && decide (c.toNat ≤ 122)) = true := hlower
  simp only [Bool.and_eq_true, decide_eq_true_eq] at hboth
  omega

end MethodSkeleton
