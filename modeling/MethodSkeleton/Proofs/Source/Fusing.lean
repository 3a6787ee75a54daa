/-
# `MethodSkeleton.Proofs.Source.Fusing` — what is never read together

Of most spellings it can be told by their kind alone that nothing behind them is read as a part of
them (`Kind.endsItself`), or that nothing in front of them goes on with them (`Kind.beginsAfresh`).
The first are the words, the quoted texts, the comments and those fixed spellings that no longer
one begins with; the second are those whose first character no fixed spelling has behind its own
first one (`goesOn`).
-/
import MethodSkeleton.Proofs.Source.Spelling

namespace MethodSkeleton

/-! ## Kinds -/

/-- The kinds whose texts no longer spelling begins with. -/
def Kind.endsItself : Kind → Bool
  | .identifier | .rawString | .string | .rune | .lineComment | .blockComment | .leftParen
  | .rightParen | .leftBracket | .rightBracket | .leftBrace | .rightBrace | .comma | .semicolon
  | .ellipsis => true
  | _ => false

/-- The kinds whose texts no spelling goes on with. -/
def Kind.beginsAfresh : Kind → Bool
  | .identifier | .rawString | .string | .rune | .leftParen | .rightParen | .leftBracket
  | .rightBracket | .leftBrace | .rightBrace | .comma | .semicolon | .star => true
  | _ => false

/-- Whether some spelling goes on with the character. -/
def goesOn (c : Char) : Bool := punctuation.any fun e => e.1.tail.contains c

/-! ## Texts -/

theorem not_fuses_of_endsItself {kind : Kind} {text rest : List Char} (h : Spells kind text)
    (hk : kind.endsItself = true) : ¬ Fuses text rest := by
  cases h with
  | lineComment => exact not_fuses_of_slash
  | blockComment => exact not_fuses_of_slash
  | identifier hc =>
      refine not_fuses_of_head ?_ (.inl hc)
      rw [← Bool.not_eq_true]
      intro hd
      rw [(isDigit_ne hd).2.2.2] at hc
      cases hc
  | rawString => exact not_fuses_of_head rfl (.inr (.inl rfl))
  | string => exact not_fuses_of_head rfl (.inr (.inr (.inl rfl)))
  | rune => exact not_fuses_of_head rfl (.inr (.inr (.inr rfl)))
  | fixed he =>
      have hall : (punctuation.all fun e => !e.2.endsItself || punctuation.all fun f =>
          !(e.1.isPrefixOf f.1 && decide (e.1.length < f.1.length))) = true := by decide
      have hlongest := List.all_eq_true.mp hall _ he
      rw [hk, Bool.not_true, Bool.false_or, List.all_eq_true] at hlongest
      rintro (⟨f, hf, hlt, hp⟩ | ⟨hd, _⟩)
      · have hprefix := List.prefix_of_prefix_length_le (List.prefix_append text rest) hp
          (Nat.le_of_lt hlt)
        have hnone := hlongest f hf
        rw [List.isPrefixOf_iff_prefix.mpr hprefix, decide_eq_true hlt] at hnone
        cases hnone
      · obtain ⟨c, tail, ht, _, _, _, hdigit, _⟩ := punctuation_head he
        obtain rfl : text = c :: tail := ht
        have hc : c.isDigit = true := hd
        rw [hdigit] at hc
        cases hc
  | _ => cases hk

/-- No spelling reaches over a character that none goes on with. -/
theorem prefix_of_not_goesOn {e : List Char × Kind} {text behind v : List Char} {d : Char}
    (he : e ∈ punctuation) (ht : text ≠ []) (hd : goesOn d = false)
    (hp : e.1 <+: text ++ (behind ++ d :: v)) : e.1 <+: text ++ behind := by
  rw [← List.append_assoc] at hp
  rcases Nat.le_total e.1.length (text ++ behind).length with hle | hle
  · exact List.prefix_of_prefix_length_le hp (List.prefix_append _ _) hle
  · obtain ⟨more, hmore⟩ := List.prefix_of_prefix_length_le (List.prefix_append _ _) hp hle
    rw [← hmore, List.prefix_append_right_inj] at hp
    cases more with
    | nil =>
        rw [List.append_nil] at hmore
        exact hmore ▸ List.prefix_rfl
    | cons c more =>
        obtain ⟨rfl, _⟩ := List.cons_prefix_cons.mp hp
        obtain ⟨t, ts, rfl⟩ := List.exists_cons_of_ne_nil ht
        have hmem : c ∈ e.1.tail := by
          rw [← hmore]
          simp
        have hgoes : goesOn c = true :=
          List.any_eq_true.mpr ⟨e, he, List.contains_iff_mem.mpr hmem⟩
        rw [hd] at hgoes
        cases hgoes

/-- A text fuses with nothing that goes on with no spelling. -/
theorem not_fuses_of_rest {text rest : List Char} (ht : text ≠ [])
    (h : rest.head?.any goesOn = false) : ¬ Fuses text rest := by
  rintro (⟨e, he, hlt, hp⟩ | ⟨_, _, hdot⟩)
  · have hle : e.1 <+: text := by
      cases rest with
      | nil => rwa [List.append_nil] at hp
      | cons c rest =>
          have hprefix : e.1 <+: text ++ [] := prefix_of_not_goesOn he ht h hp
          rwa [List.append_nil] at hprefix
    exact absurd hle.length_le (Nat.not_le_of_lt hlt)
  · rw [hdot] at h
    cases h

theorem head_beginsAfresh {kind : Kind} {text : List Char} (h : Spells kind text)
    (hk : kind.beginsAfresh = true) : ∃ c tail, text = c :: tail ∧ goesOn c = false := by
  cases h with
  | @identifier c tail hc =>
      refine ⟨c, tail, rfl, ?_⟩
      have hall : (punctuation.all fun e => e.1.tail.all fun d => !isIdentifierStart d) = true := by
        decide
      rw [← Bool.not_eq_true]
      intro hgoes
      obtain ⟨e, he, hmem⟩ := List.any_eq_true.mp hgoes
      have hnone := List.all_eq_true.mp (List.all_eq_true.mp hall e he) c
        (List.contains_iff_mem.mp hmem)
      rw [hc] at hnone
      cases hnone
  | rawString => exact ⟨_, _, rfl, by decide⟩
  | string => exact ⟨_, _, rfl, by decide⟩
  | rune => exact ⟨_, _, rfl, by decide⟩
  | fixed he =>
      have hall : (punctuation.all fun e => !e.2.beginsAfresh ||
          e.1.head?.any fun c => !goesOn c) = true := by decide
      have hhead := List.all_eq_true.mp hall _ he
      rw [hk, Bool.not_true, Bool.false_or] at hhead
      obtain ⟨c, hc, hgoes⟩ := Option.any_eq_true _ _ |>.mp hhead
      obtain ⟨tail, ht⟩ := List.head?_eq_some_iff.mp hc
      exact ⟨c, tail, ht, by simpa using hgoes⟩
  | _ => cases hk

/-- A character fuses with nothing but that which all longer spellings have behind it. -/
theorem not_fuses_single {a b c : Char} (ha : a.isDigit = false)
    (hall : ∀ e ∈ punctuation, e.1.head? = some a → e.1.tail.head?.all (· == b) = true)
    (hc : c ≠ b) (rest : List Char) : ¬ Fuses [a] (c :: rest) := by
  rintro (⟨⟨spelling, kind⟩, he, hlt, hp⟩ | ⟨hd, _⟩)
  · obtain ⟨a', c', more, rfl⟩ : ∃ a' c' more, spelling = a' :: c' :: more := by
      match spelling, hlt with
      | a' :: c' :: more, _ => exact ⟨a', c', more, rfl⟩
    obtain ⟨rfl, hrest⟩ := List.cons_prefix_cons.mp hp
    obtain ⟨rfl, _⟩ := List.cons_prefix_cons.mp hrest
    exact hc (by simpa using hall _ he rfl)
  · rw [List.head?_cons, Option.any_some, ha] at hd
    cases hd

/-- A star fuses with nothing but an equals sign. -/
theorem not_fuses_star {c : Char} (hc : c ≠ '=') (rest : List Char) : ¬ Fuses ['*'] (c :: rest) :=
  not_fuses_single rfl (by decide) hc rest

/-- A dot fuses with nothing but a dot. -/
theorem not_fuses_dot {c : Char} (hc : c ≠ '.') (rest : List Char) : ¬ Fuses ['.'] (c :: rest) :=
  not_fuses_single rfl (by decide) hc rest

theorem Spells.comment_head {kind : Kind} {text : List Char} (h : Spells kind text)
    (hk : kind.isComment = true) : ∃ tail, text = '/' :: tail := by
  cases h with
  | lineComment => exact ⟨_, rfl⟩
  | blockComment => exact ⟨_, rfl⟩
  | fixed he =>
      have hall : ∀ e ∈ punctuation, e.2.isComment = false := by decide
      have hnone := hall _ he
      rw [hk] at hnone
      cases hnone
  | _ => cases hk

end MethodSkeleton
