/-
# `MethodSkeleton.Proofs.Source.Numeral` — how far a number is read

A number may be written in the language

    [0-9][0-9a-zA-Z_]*(\.[0-9a-zA-Z_]*)?([eEpP][+-][0-9_]+i?)?

which is `numeral` below.  The scanner reads the part up to the sign and no further
(`mem_unsignedNumeral_iff`): the letter in front of the sign joins the digits before it, and then
nothing is left that could begin an exponent.  So a numeral is read as one token in front of
anything that does not extend it if it has no sign, and as three if it has one
(`lexemes_unsignedNumeral`, `lexemes_signedNumeral`).
-/
import Mathlib.Computability.Language
import MethodSkeleton.Proofs.Source.Fusing
import MethodSkeleton.Proofs.Source.Reread

namespace MethodSkeleton

open scoped Computability

/-! ## The pattern -/

/-- The texts of one character that satisfies `p`. -/
def oneOf (p : Char → Prop) : Language Char := {w | ∃ c, p c ∧ w = [c]}

/-- A text of the language, or nothing. -/
def maybe (L : Language Char) : Language Char := 1 + L

/-- `[0-9][0-9a-zA-Z_]*(\.[0-9a-zA-Z_]*)?`. -/
def unsignedNumeral : Language Char :=
  oneOf (·.isDigit) * (oneOf (isNumberPart ·))∗ *
    maybe (oneOf (· = '.') * (oneOf (isNumberPart ·))∗)

/-- What stands in the digits of an exponent. -/
def IsExponentDigit (c : Char) : Prop := c.isDigit ∨ c = '_'

/-- `[eEpP][+-][0-9_]+i?`. -/
def signedExponent : Language Char :=
  oneOf (· ∈ ['e', 'E', 'p', 'P']) * oneOf (· ∈ ['+', '-']) *
    (oneOf IsExponentDigit * (oneOf IsExponentDigit)∗) * maybe (oneOf (· = 'i'))

/-- What a number may look like, with or without an exponent that has a sign. -/
def numeral : Language Char := unsignedNumeral * maybe signedExponent

/-- A text with a sign in it. -/
def IsSigned (w : List Char) : Prop := '+' ∈ w ∨ '-' ∈ w

instance (w : List Char) : Decidable (IsSigned w) := inferInstanceAs (Decidable (_ ∨ _))

theorem mem_oneOf_iff {p : Char → Prop} {w : List Char} : w ∈ oneOf p ↔ ∃ c, p c ∧ w = [c] :=
  Iff.rfl

theorem mem_maybe_iff {L : Language Char} {w : List Char} : w ∈ maybe L ↔ w = [] ∨ w ∈ L :=
  Iff.rfl

theorem mem_kstar_oneOf_iff {p : Char → Prop} {w : List Char} :
    w ∈ (oneOf p)∗ ↔ ∀ c ∈ w, p c := by
  rw [Language.mem_kstar]
  constructor
  · rintro ⟨ws, rfl, hws⟩ c hc
    obtain ⟨v, hv, hc⟩ := List.mem_flatten.mp hc
    obtain ⟨d, hd, rfl⟩ := hws v hv
    rwa [List.mem_singleton.mp hc]
  · intro hw
    refine ⟨w.map ([·]), ?_, fun v hv => ?_⟩
    · rw [← List.flatMap_def, List.flatMap_singleton']
    · obtain ⟨c, hc, rfl⟩ := List.mem_map.mp hv
      exact ⟨c, hw c hc, rfl⟩

/-! ## What the scanner takes for a number -/

theorem numberLength_eq_length_iff {cs : List Char} : numberLength cs = cs.length ↔
    ∃ whole fraction, cs = whole ++ fraction ∧ (∀ c ∈ whole, isNumberPart c = true) ∧
      (fraction = [] ∨ ∃ ds, fraction = '.' :: ds ∧ ∀ d ∈ ds, isNumberPart d = true) := by
  induction cs with
  | nil => exact iff_of_true rfl ⟨[], [], rfl, by simp, .inl rfl⟩
  | cons c cs ih =>
      rw [numberLength_cons]
      constructor
      · intro h
        split at h
        · rename_i hc
          obtain ⟨whole, fraction, rfl, hwhole, hfraction⟩ := ih.mp (Nat.succ.inj h)
          exact ⟨c :: whole, fraction, rfl, List.forall_mem_cons.mpr ⟨hc, hwhole⟩, hfraction⟩
        split at h
        · rename_i hc
          have hds := runLength_eq_length_iff.mp (Nat.succ.inj h)
          exact ⟨[], c :: cs, rfl, by simp, .inr ⟨cs, by rw [hc], hds⟩⟩
        · cases h
      · rintro ⟨whole, fraction, hcs, hwhole, hfraction⟩
        cases whole with
        | cons d whole =>
            obtain ⟨rfl, rfl⟩ := List.cons.inj hcs
            obtain ⟨hc, hwhole⟩ := List.forall_mem_cons.mp hwhole
            rw [if_pos hc, ih.mpr ⟨whole, fraction, rfl, hwhole, hfraction⟩]
            rfl
        | nil =>
            rcases hfraction with rfl | ⟨ds, rfl, hds⟩
            · cases hcs
            · cases hcs
              have hpoint : ¬ isNumberPart '.' = true := by decide
              rw [if_neg hpoint, if_pos rfl, runLength_eq_length_iff.mpr hds]
              rfl

/-- The scanner's numbers are the numerals without a sign. -/
theorem mem_unsignedNumeral_iff {w : List Char} : w ∈ unsignedNumeral ↔ Spells .number w := by
  simp only [unsignedNumeral, Language.mem_mul, mem_oneOf_iff, mem_maybe_iff, mem_kstar_oneOf_iff]
  constructor
  · rintro ⟨_, ⟨_, ⟨c, hc, rfl⟩, whole, hwhole, rfl⟩, fraction, hfraction, rfl⟩
    refine .number hc (numberLength_eq_length_iff.mpr ⟨whole, fraction, rfl, hwhole, ?_⟩)
    rcases hfraction with rfl | ⟨_, ⟨_, rfl, rfl⟩, ds, hds, rfl⟩
    · exact .inl rfl
    · exact .inr ⟨ds, rfl, hds⟩
  · intro h
    cases h with
    | @number c tail hc hlen =>
        obtain ⟨whole, fraction, rfl, hwhole, hfraction⟩ := numberLength_eq_length_iff.mp hlen
        refine ⟨c :: whole, ⟨[c], ⟨c, hc, rfl⟩, whole, hwhole, rfl⟩, fraction, ?_, rfl⟩
        rcases hfraction with rfl | ⟨ds, rfl, hds⟩
        · exact .inl rfl
        · exact .inr ⟨['.'], ⟨'.', rfl, rfl⟩, ds, hds, rfl⟩
    | fixed he => cases punctuation_isFixed he

theorem Spells.not_isSigned {w : List Char} (h : Spells .number w) : ¬ IsSigned w := by
  cases h with
  | @number c tail hc hlen =>
      have hsign : ∀ s ∈ ['+', '-'], s ∉ c :: tail := by
        intro s hs hmem
        rcases List.mem_cons.mp hmem with rfl | hmem
        · revert hc
          rcases List.mem_pair.mp hs with rfl | rfl <;> decide
        · have hpart := numberLength_mem hlen s hmem
          revert hpart
          rcases List.mem_pair.mp hs with rfl | rfl <;> decide
      rintro (hmem | hmem)
      · exact hsign '+' (by simp) hmem
      · exact hsign '-' (by simp) hmem
  | fixed he => cases punctuation_isFixed he

/-- A letter or a digit joins the number in front of it. -/
theorem Spells.number_append {w : List Char} (h : Spells .number w) {c : Char}
    (hc : isNumberPart c = true) : Spells .number (w ++ [c]) := by
  cases h with
  | @number d tail hd hlen =>
      refine .number hd (numberLength_eq_length_iff.mpr ?_)
      obtain ⟨whole, fraction, rfl, hwhole, hfraction⟩ := numberLength_eq_length_iff.mp hlen
      rcases hfraction with rfl | ⟨ds, rfl, hds⟩
      · refine ⟨whole ++ [c], [], by simp, ?_, .inl rfl⟩
        exact List.forall_mem_append.mpr ⟨hwhole, by simpa using hc⟩
      · refine ⟨whole, '.' :: (ds ++ [c]), by simp, hwhole, .inr ⟨ds ++ [c], rfl, ?_⟩⟩
        exact List.forall_mem_append.mpr ⟨hds, by simpa using hc⟩
  | fixed he => cases punctuation_isFixed he

/-- So does a point, if there is none yet. -/
theorem Spells.number_append_point {w : List Char} (h : Spells .number w) (hw : '.' ∉ w) :
    Spells .number (w ++ ['.']) := by
  cases h with
  | @number d tail hd hlen =>
      refine .number hd (numberLength_eq_length_iff.mpr ?_)
      obtain ⟨whole, fraction, rfl, hwhole, hfraction⟩ := numberLength_eq_length_iff.mp hlen
      rcases hfraction with rfl | ⟨ds, rfl, _⟩
      · exact ⟨whole, ['.'], by simp, hwhole, .inr ⟨[], rfl, by simp⟩⟩
      · exact absurd (by simp) hw
  | fixed he => cases punctuation_isFixed he

theorem mem_signedExponent_iff {w : List Char} : w ∈ signedExponent ↔
    ∃ e s d ds unit, w = e :: s :: d :: (ds ++ unit) ∧ e ∈ ['e', 'E', 'p', 'P'] ∧ s ∈ ['+', '-'] ∧
      IsExponentDigit d ∧ (∀ c ∈ ds, IsExponentDigit c) ∧ (unit = [] ∨ unit = ['i']) := by
  simp only [signedExponent, Language.mem_mul, mem_maybe_iff, mem_oneOf_iff, mem_kstar_oneOf_iff]
  constructor
  · rintro ⟨_, ⟨_, ⟨_, ⟨e, he, rfl⟩, _, ⟨s, hs, rfl⟩, rfl⟩, _, ⟨_, ⟨d, hd, rfl⟩, ds, hds, rfl⟩,
      rfl⟩, unit, hunit, rfl⟩
    refine ⟨e, s, d, ds, unit, by simp, he, hs, hd, hds, hunit.imp_right ?_⟩
    rintro ⟨_, rfl, rfl⟩
    rfl
  · rintro ⟨e, s, d, ds, unit, rfl, he, hs, hd, hds, hunit⟩
    exact ⟨e :: s :: d :: ds, ⟨[e, s], ⟨[e], ⟨e, he, rfl⟩, [s], ⟨s, hs, rfl⟩, rfl⟩, d :: ds,
      ⟨[d], ⟨d, hd, rfl⟩, ds, hds, rfl⟩, rfl⟩, unit, hunit.imp_right fun h => ⟨'i', rfl, h⟩, rfl⟩

theorem mem_numeral_iff {w : List Char} : w ∈ numeral ↔
    ∃ front, Spells .number front ∧
      ∃ exponent, (exponent = [] ∨ exponent ∈ signedExponent) ∧ front ++ exponent = w := by
  simp only [numeral, Language.mem_mul, mem_maybe_iff, mem_unsignedNumeral_iff]

theorem mem_numeral_of_spells {w : List Char} (h : Spells .number w) : w ∈ numeral :=
  mem_numeral_iff.mpr ⟨w, h, [], .inl rfl, List.append_nil w⟩

/-- A numeral is a number of the scanner, or begins with one that a sign follows. -/
theorem mem_numeral_cases {w : List Char} (h : w ∈ numeral) :
    Spells .number w ∨ ∃ front s d more, w = front ++ s :: d :: more ∧ Spells .number front ∧
      (s = '+' ∨ s = '-') ∧ IsExponentDigit d := by
  obtain ⟨front, hfront, exponent, rfl | hexponent, rfl⟩ := mem_numeral_iff.mp h
  · exact .inl (by rwa [List.append_nil])
  · obtain ⟨e, s, d, ds, unit, rfl, he, hs, hd, _⟩ := mem_signedExponent_iff.mp hexponent
    have hletter : ∀ e ∈ ['e', 'E', 'p', 'P'], isNumberPart e = true :=
      List.all_eq_true.mp (by decide)
    refine .inr ⟨front ++ [e], s, d, ds ++ unit, by simp, hfront.number_append (hletter e he), ?_,
      hd⟩
    simpa using hs

/-- The characters of a numeral. -/
def IsNumeralPart (c : Char) : Prop := isNumberPart c ∨ c ∈ ['.', '+', '-']

instance (c : Char) : Decidable (IsNumeralPart c) := inferInstanceAs (Decidable (_ ∨ _))

theorem IsExponentDigit.isNumeralPart {c : Char} (h : IsExponentDigit c) : IsNumeralPart c := by
  rcases h with h | rfl
  · refine .inl ?_
    simp [isNumberPart, Char.isAlphanum, h]
  · decide

theorem Spells.isNumeralPart {w : List Char} (h : Spells .number w) : ∀ c ∈ w, IsNumeralPart c := by
  cases h with
  | @number c tail hc hlen =>
      refine List.forall_mem_cons.mpr ⟨.inl ?_, fun d hd => ?_⟩
      · simp [isNumberPart, Char.isAlphanum, hc]
      · exact (numberLength_mem hlen d hd).imp_right fun hpoint => by simp [hpoint]
  | fixed he => cases punctuation_isFixed he

theorem isNumeralPart_of_mem_signedExponent {w : List Char} (h : w ∈ signedExponent) :
    ∀ c ∈ w, IsNumeralPart c := by
  obtain ⟨e, s, d, ds, unit, rfl, he, hs, hd, hds, hunit⟩ := mem_signedExponent_iff.mp h
  have hletter : ['e', 'E', 'p', 'P'].all isNumberPart = true := by decide
  have hunit' : ∀ c ∈ unit, IsNumeralPart c := by
    rcases hunit with rfl | rfl
    · exact List.forall_mem_nil _
    · exact List.forall_mem_singleton.mpr (by decide)
  refine List.forall_mem_cons.mpr ⟨.inl (List.all_eq_true.mp hletter e he), ?_⟩
  refine List.forall_mem_cons.mpr ⟨.inr (List.mem_cons_of_mem '.' hs), ?_⟩
  refine List.forall_mem_cons.mpr ⟨hd.isNumeralPart, ?_⟩
  exact List.forall_mem_append.mpr ⟨fun c hc => (hds c hc).isNumeralPart, hunit'⟩

theorem isNumeralPart_of_mem_numeral {w : List Char} (h : w ∈ numeral) :
    ∀ c ∈ w, IsNumeralPart c := by
  obtain ⟨front, hfront, exponent, hexponent, rfl⟩ := mem_numeral_iff.mp h
  refine List.forall_mem_append.mpr ⟨hfront.isNumeralPart, ?_⟩
  rcases hexponent with rfl | hexponent
  · exact List.forall_mem_nil _
  · exact isNumeralPart_of_mem_signedExponent hexponent

/-! ## Reading a numeral -/

/-- Nothing that follows makes a longer numeral of it. -/
def NotExtended (w after : List Char) : Prop := ∀ c, after.head? = some c → w ++ [c] ∉ numeral

theorem notExtended_nil (w : List Char) : NotExtended w [] := fun _ hc => nomatch hc

theorem notExtended_cons (w : List Char) {d : Char} (h : ¬ IsNumeralPart d) (after : List Char) :
    NotExtended w (d :: after) := by
  rintro c hc hmem
  obtain rfl : d = c := Option.some.inj hc
  exact h (isNumeralPart_of_mem_numeral hmem d (by simp))

/-- A numeral without a sign is read as one token. -/
theorem lexemes_unsignedNumeral {w after : List Char} (h : Spells .number w)
    (hafter : NotExtended w after) :
    lexemes (w ++ after) = ⟨.token .number, w⟩ :: lexemes after := by
  suffices hstand : StandsBefore ⟨.token .number, w⟩ after from hstand.lexemes_eq
  cases h with
  | fixed he => cases punctuation_isFixed he
  | @number c tail hc hlen =>
      have hspells : Spells .number (c :: tail) := .number hc hlen
      rw [standsBefore_number_iff hc]
      refine ⟨hlen, ?_, or_iff_not_imp_left.mpr fun hpoint hdot => ?_⟩
      · cases after with
        | nil => rfl
        | cons d after =>
            refine Bool.eq_false_iff.mpr fun hd => ?_
            exact hafter d rfl (mem_numeral_of_spells (hspells.number_append hd))
      · have hne : '.' ≠ c := by
          rintro rfl
          cases hc
        have hnone : '.' ∉ c :: tail := by simp [hne, hpoint]
        exact hafter '.' hdot (mem_numeral_of_spells (hspells.number_append_point hnone))

/-- The token that a sign is. -/
def signKind (s : Char) : Kind := if s = '+' then .plus else .minus

/-- A number of the scanner ends in front of a sign. -/
theorem standsBefore_sign {front : List Char} {s : Char} (h : Spells .number front)
    (hs : s = '+' ∨ s = '-') (rest : List Char) :
    StandsBefore ⟨.token .number, front⟩ (s :: rest) := by
  cases h with
  | fixed he => cases punctuation_isFixed he
  | @number c tail hc hlen =>
      rw [standsBefore_number_iff hc]
      refine ⟨hlen, ?_, .inr ?_⟩
      · rcases hs with rfl | rfl <;> rfl
      · rcases hs with rfl | rfl <;> simp

theorem IsExponentDigit.not_goesOn {d : Char} (h : IsExponentDigit d) : goesOn d = false := by
  have hall : (punctuation.all fun e => e.1.tail.all fun c => !c.isDigit && c != '_') = true := by
    decide
  refine Bool.eq_false_iff.mpr fun hgoes => ?_
  obtain ⟨e, he, hmem⟩ := List.any_eq_true.mp hgoes
  have hnone := List.all_eq_true.mp (List.all_eq_true.mp hall e he) d
    (List.contains_iff_mem.mp hmem)
  rcases h with h | rfl
  · rw [h] at hnone
    cases hnone
  · exact absurd hnone (by decide)

/-- A sign in front of the digits of an exponent is a token of its own. -/
theorem sign_standsBefore {s d : Char} (hs : s = '+' ∨ s = '-') (hd : IsExponentDigit d)
    (rest : List Char) : StandsBefore ⟨.token (signKind s), [s]⟩ (d :: rest) := by
  have hfuses : ¬ Fuses [s] (d :: rest) := not_fuses_of_rest (List.cons_ne_nil s []) hd.not_goesOn
  rcases hs with rfl | rfl
  · have hspells : Spells .plus ['+'] := .fixed (by decide)
    exact (hspells.standsBefore_iff (by decide)
      ⟨fun h => absurd h (by decide), fun h => absurd h (by decide)⟩).mpr hfuses
  · have hspells : Spells .minus ['-'] := .fixed (by decide)
    exact (hspells.standsBefore_iff (by decide)
      ⟨fun h => absurd h (by decide), fun h => absurd h (by decide)⟩).mpr hfuses

/-- A numeral with a sign is read as a number, the sign, and what the digits behind it begin. -/
theorem lexemes_signedNumeral {front after : List Char} {s d : Char} (h : Spells .number front)
    (hs : s = '+' ∨ s = '-') (hd : IsExponentDigit d) :
    lexemes (front ++ s :: d :: after) =
      ⟨.token .number, front⟩ :: ⟨.token (signKind s), [s]⟩ :: lexemes (d :: after) := by
  rw [(standsBefore_sign h hs (d :: after)).lexemes_eq]
  exact congrArg _ (sign_standsBefore hs hd after).lexemes_eq

end MethodSkeleton
