/-
# `MethodSkeleton.Proofs.Source.Reading` — what the scanner finds at a place

`munch` tries one thing after the other.  Here each branch is said by itself: `Reads c cs is n`
is one way in which something of class `is` can begin at `c` and take `n` characters of the
text `cs` behind it.  What is found is always read in one of these ways (`reads_munch`), and
what can be read as a token is what is found (`munch_eq_token_iff`), since no two tokens begin
alike where the branches do not tell them apart.

In front of that stand the lengths that the branches use: how far a run, a literal, a comment
or a number goes when more text follows, and which fixed spelling is the longest that fits.
-/
import Mathlib.Data.List.Nodup
import MethodSkeleton.Source.Scan

namespace MethodSkeleton

/-! ## Runs -/

theorem runLength_cons (p : Char → Bool) (c : Char) (cs : List Char) :
    runLength p (c :: cs) = if p c then runLength p cs + 1 else 0 := by
  simp only [runLength, List.takeWhile_cons]
  split <;> rfl

theorem runLength_le (p : Char → Bool) (cs : List Char) : runLength p cs ≤ cs.length :=
  (List.takeWhile_prefix p).length_le

/-- A run stops at the end of `cs` exactly if `cs` consists of `p` and what follows does not
begin with it. -/
theorem runLength_append_eq_length_iff {p : Char → Bool} {cs rest : List Char} :
    runLength p (cs ++ rest) = cs.length ↔ (∀ c ∈ cs, p c = true) ∧ rest.head?.any p = false := by
  induction cs with
  | nil =>
      cases rest with
      | nil => simp [runLength]
      | cons d rest => simp [runLength_cons]
  | cons c cs ih =>
      rw [List.cons_append, runLength_cons]
      by_cases hc : p c = true
      · simp [hc, ih]
      · simp [hc]

theorem runLength_eq_length_iff {p : Char → Bool} {cs : List Char} :
    runLength p cs = cs.length ↔ ∀ c ∈ cs, p c = true := by
  have h := @runLength_append_eq_length_iff p cs []
  simpa using h

/-! ## What ends by itself -/

theorem blockCommentLength_cons (c : Char) (cs : List Char) :
    blockCommentLength (c :: cs) =
      if c = '*' ∧ cs.head? = some '/' then some 2 else (blockCommentLength cs).map (· + 1) := by
  split
  · rename_i h
    obtain ⟨rfl, h⟩ := h
    obtain ⟨rest, rfl⟩ := List.head?_eq_some_iff.mp h
    rfl
  · rename_i h
    rw [blockCommentLength]
    rintro rest rfl rfl
    exact h ⟨rfl, rfl⟩

theorem blockCommentLength_le {cs : List Char} {n : Nat} (h : blockCommentLength cs = some n) :
    0 < n ∧ n ≤ cs.length := by
  fun_induction blockCommentLength cs generalizing n with
  | case1 =>
      cases h
      simp
  | case2 c cs hne ih =>
      obtain ⟨m, hm, rfl⟩ := Option.map_eq_some_iff.mp h
      exact ⟨Nat.succ_pos m, Nat.succ_le_succ (ih hm).2⟩
  | case3 => cases h

theorem blockCommentLength_append_iff {cs rest : List Char} :
    blockCommentLength (cs ++ rest) = some cs.length ↔ blockCommentLength cs = some cs.length := by
  induction cs with
  | nil =>
      constructor
      · intro h
        cases (blockCommentLength_le h).1
      · intro h
        cases h
  | cons c cs ih =>
      rw [List.cons_append, blockCommentLength_cons, blockCommentLength_cons]
      cases cs with
      | nil =>
          -- `*` alone closes nothing, and what follows it would be counted
          have hne : blockCommentLength rest ≠ some 0 :=
            fun h => absurd (blockCommentLength_le h).1 (Nat.lt_irrefl 0)
          by_cases hc : c = '*' ∧ rest.head? = some '/'
          · simp [hc, blockCommentLength]
          · simp [hc, hne, blockCommentLength]
      | cons d cs =>
          by_cases hc : c = '*' ∧ d = '/'
          · simp [hc]
          · simp only [List.cons_append, List.head?_cons, Option.some.injEq, if_neg hc]
            simpa using ih

theorem blockCommentLength_append {cs : List Char} {n : Nat} (h : blockCommentLength cs = some n)
    (rest : List Char) : blockCommentLength (cs ++ rest) = some n := by
  fun_induction blockCommentLength cs generalizing n with
  | case1 cs => exact h
  | case2 c cs hne ih =>
      obtain ⟨m, hm, rfl⟩ := Option.map_eq_some_iff.mp h
      have hclosing : ¬ (c = '*' ∧ (cs ++ rest).head? = some '/') := by
        rintro ⟨rfl, hslash⟩
        cases cs with
        | nil => cases hm
        | cons d cs => exact hne cs rfl (congrArg (· :: cs) (Option.some.inj hslash))
      rw [List.cons_append, blockCommentLength_cons, if_neg hclosing, ih hm]
      rfl
  | case3 => cases h

theorem rawLength_le {q : Char} {cs : List Char} {n : Nat} (h : rawLength q cs = some n) :
    0 < n ∧ n ≤ cs.length := by
  fun_induction rawLength q cs generalizing n with
  | case1 => cases h
  | case2 =>
      cases h
      simp
  | case3 c cs hne ih =>
      obtain ⟨m, hm, rfl⟩ := Option.map_eq_some_iff.mp h
      exact ⟨Nat.succ_pos m, Nat.succ_le_succ (ih hm).2⟩

theorem rawLength_append_iff {q : Char} {cs rest : List Char} :
    rawLength q (cs ++ rest) = some cs.length ↔ rawLength q cs = some cs.length := by
  induction cs with
  | nil =>
      constructor
      · intro h
        cases (rawLength_le h).1
      · intro h
        cases h
  | cons c cs ih =>
      simp only [List.cons_append, rawLength]
      by_cases hc : c = q
      · simp [hc]
      · simpa [hc] using ih

theorem rawLength_append {q : Char} {cs : List Char} {n : Nat} (h : rawLength q cs = some n)
    (rest : List Char) : rawLength q (cs ++ rest) = some n := by
  fun_induction rawLength q cs generalizing n with
  | case1 => cases h
  | case2 cs =>
      rw [List.cons_append, rawLength, if_pos rfl]
      exact h
  | case3 c cs hne ih =>
      obtain ⟨m, hm, rfl⟩ := Option.map_eq_some_iff.mp h
      rw [List.cons_append, rawLength, if_neg hne, ih hm]
      rfl

theorem QuoteEnd.after_eq_closed_iff {e : QuoteEnd} {n m : Nat} :
    e.after n = .closed m ↔ ∃ k, e = .closed k ∧ m = k + n := by
  cases e <;> simp [QuoteEnd.after, eq_comm]

theorem quoteEnd_le {q : Char} {cs : List Char} {n : Nat} (h : quoteEnd q cs = .closed n) :
    0 < n ∧ n ≤ cs.length := by
  fun_induction quoteEnd q cs generalizing n with
  | case1 => cases h
  | case2 => cases h
  | case3 c cs hc ih =>
      obtain ⟨m, hm, rfl⟩ := QuoteEnd.after_eq_closed_iff.mp h
      exact ⟨by omega, Nat.add_le_add_right (ih hm).2 2⟩
  | case4 =>
      cases h
      simp
  | case5 => cases h
  | case6 c cs _ _ _ ih =>
      obtain ⟨m, hm, rfl⟩ := QuoteEnd.after_eq_closed_iff.mp h
      exact ⟨by omega, Nat.succ_le_succ (ih hm).2⟩

theorem QuoteEnd.after_eq_broken_iff {e : QuoteEnd} {n m : Nat} :
    e.after n = .broken m ↔ ∃ k, e = .broken k ∧ m = k + n := by
  cases e <;> simp [QuoteEnd.after, eq_comm]

theorem quoteEnd_broken_le {q : Char} {cs : List Char} {n : Nat} (h : quoteEnd q cs = .broken n) :
    n ≤ cs.length := by
  fun_induction quoteEnd q cs generalizing n with
  | case1 =>
      cases h
      exact Nat.zero_le _
  | case2 =>
      cases h
      exact Nat.zero_le _
  | case3 c cs hc ih =>
      obtain ⟨m, hm, rfl⟩ := QuoteEnd.after_eq_broken_iff.mp h
      exact Nat.add_le_add_right (ih hm) 2
  | case4 => cases h
  | case5 =>
      cases h
      exact Nat.zero_le _
  | case6 c cs _ _ _ ih =>
      obtain ⟨m, hm, rfl⟩ := QuoteEnd.after_eq_broken_iff.mp h
      exact Nat.succ_le_succ (ih hm)

theorem quoteEnd_cons {q c : Char} {cs : List Char} (hc : c ≠ '\\') :
    quoteEnd q (c :: cs) =
      if c = q then .closed 1 else if isLineEnd c then .broken 0 else (quoteEnd q cs).after 1 := by
  rw [quoteEnd]
  · simp [hc]
  · rintro d ds rfl
    exact absurd rfl hc

theorem quoteEnd_append_iff {q : Char} (hq : q ≠ '\\') {cs rest : List Char} :
    quoteEnd q (cs ++ rest) = .closed cs.length ↔ quoteEnd q cs = .closed cs.length := by
  have hzero : ∀ ds, quoteEnd q ds ≠ .closed 0 :=
    fun ds h => absurd (quoteEnd_le h).1 (Nat.lt_irrefl 0)
  fun_induction quoteEnd q cs with
  | case1 => simp [hzero]
  | case2 cs => simp [quoteEnd]
  | case3 c cs hc ih =>
      simp only [List.cons_append, quoteEnd, if_neg hc, QuoteEnd.after_eq_closed_iff]
      simpa using ih
  | case4 =>
      rw [List.cons_append, quoteEnd_cons hq]
      simp
  | case5 c cs h hc hb =>
      by_cases hne : c = '\\'
      · -- a backslash at the end takes the next character with it
        subst hne
        have hcs : cs = [] := by
          cases cs with
          | nil => rfl
          | cons d ds => exact absurd rfl (h d ds rfl)
        subst hcs
        cases rest with
        | nil => simp [quoteEnd, hc]
        | cons d ds =>
            simp only [List.cons_append, List.nil_append, quoteEnd]
            split <;> simp [QuoteEnd.after_eq_closed_iff]
      · have hl : isLineEnd c = true := by simpa [hne] using hb
        rw [List.cons_append, quoteEnd_cons hne]
        simp [hc, hl]
  | case6 c cs _ hc hb ih =>
      simp only [not_or, Bool.or_eq_true, decide_eq_true_eq] at hb
      rw [List.cons_append, quoteEnd_cons hb.2, if_neg hc, if_neg hb.1]
      simpa [QuoteEnd.after_eq_closed_iff] using ih

/-! ## Numbers -/

theorem numberLength_cons (c : Char) (cs : List Char) :
    numberLength (c :: cs) =
      if isNumberPart c then numberLength cs + 1
      else if c = '.' then runLength isNumberPart cs + 1 else 0 := by
  by_cases hc : isNumberPart c = true
  · simp only [numberLength, runLength_cons, if_pos hc, List.drop_succ_cons]
    split <;> omega
  · simp only [numberLength, runLength_cons, if_neg hc, List.drop_zero]
    split
    · rename_i h
      cases h
      simp [Nat.add_comm]
    · rename_i h
      have hne : c ≠ '.' := by
        rintro rfl
        exact h _ rfl
      rw [if_neg hne]

theorem numberLength_le (cs : List Char) : numberLength cs ≤ cs.length := by
  induction cs with
  | nil => simp [numberLength, runLength]
  | cons c cs ih =>
      have h := runLength_le isNumberPart cs
      rw [numberLength_cons, List.length_cons]
      split
      · omega
      · split <;> omega

theorem numberLength_append_eq_length_iff {cs rest : List Char} :
    numberLength (cs ++ rest) = cs.length ↔
      numberLength cs = cs.length ∧ rest.head?.any isNumberPart = false ∧
        ('.' ∈ cs ∨ rest.head? ≠ some '.') := by
  have hdot : isNumberPart '.' = false := rfl
  induction cs with
  | nil =>
      cases rest with
      | nil => simp
      | cons d rest =>
          simp only [List.nil_append, numberLength_cons]
          by_cases hd : isNumberPart d = true
          · simp [hd]
          · by_cases hp : d = '.'
            · simp [hp, hdot]
            · simp [hd, hp, numberLength, runLength]
  | cons c cs ih =>
      rw [List.cons_append, numberLength_cons, numberLength_cons]
      by_cases hc : isNumberPart c = true
      · have hne : '.' ≠ c := by
          rintro rfl
          cases hc
        simp [hc, hne, ih]
      · by_cases hp : c = '.'
        · subst hp
          simp [hdot, runLength_append_eq_length_iff, runLength_eq_length_iff]
        · simp [hc, hp]

/-! ## Fixed spellings -/

theorem punctuation_pairwise : punctuation.Pairwise fun a b => b.1.length ≤ a.1.length := by
  decide

theorem punctuation_nodup : (punctuation.map (·.1)).Nodup := by
  decide

/-- The fixed spelling that is read is the longest that fits. -/
theorem punctuation?_eq_some_iff {cs : List Char} {e : List Char × Kind} :
    punctuation? cs = some e ↔
      e ∈ punctuation ∧ e.1 <+: cs ∧ ∀ f ∈ punctuation, f.1 <+: cs → f.1.length ≤ e.1.length := by
  have hlongest : ∀ {e}, punctuation? cs = some e →
      e ∈ punctuation ∧ e.1 <+: cs ∧ ∀ f ∈ punctuation, f.1 <+: cs → f.1.length ≤ e.1.length := by
    intro e he
    obtain ⟨hp, before, after, hl, hbefore⟩ := List.find?_eq_some_iff_append.mp he
    have hsorted := punctuation_pairwise
    rw [hl, List.pairwise_append, List.pairwise_cons] at hsorted
    refine ⟨by simp [hl], List.isPrefixOf_iff_prefix.mp hp, fun f hf hfp => ?_⟩
    rw [hl, List.mem_append, List.mem_cons] at hf
    rcases hf with hf | rfl | hf
    · have := hbefore f hf
      simp [List.isPrefixOf_iff_prefix.mpr hfp] at this
    · exact Nat.le_refl _
    · exact hsorted.2.1.1 f hf
  refine ⟨hlongest, fun ⟨he, hp, hmax⟩ => ?_⟩
  cases hf : punctuation? cs with
  | none =>
      have := List.find?_eq_none.mp hf e he
      simp [List.isPrefixOf_iff_prefix.mpr hp] at this
  | some f =>
      obtain ⟨hf, hfp, hfmax⟩ := hlongest hf
      have hlen : f.1.length = e.1.length := Nat.le_antisymm (hmax f hf hfp) (hfmax e he hp)
      have htext : f.1 = e.1 :=
        (List.prefix_of_prefix_length_le hfp hp (Nat.le_of_eq hlen)).eq_of_length hlen
      rw [List.inj_on_of_nodup_map punctuation_nodup hf he htext]

/-- No fixed spelling begins like a blank, a line end, a word, a number or a literal. -/
theorem punctuation_head {e : List Char × Kind} (he : e ∈ punctuation) :
    ∃ c tail, e.1 = c :: tail ∧ isBlank c = false ∧ isLineEnd c = false ∧
      isIdentifierStart c = false ∧ c.isDigit = false ∧ c ≠ '\x60' ∧ c ≠ '"' ∧ c ≠ '\'' := by
  have h : (punctuation.all fun e => e.1.head?.any fun c => !isBlank c && !isLineEnd c &&
      !isIdentifierStart c && !c.isDigit && c != '\x60' && c != '"' && c != '\'') = true := by
    decide
  obtain ⟨c, hc, h⟩ := Option.any_eq_true _ _ |>.mp (List.all_eq_true.mp h e he)
  obtain ⟨tail, ht⟩ := List.head?_eq_some_iff.mp hc
  exact ⟨c, tail, ht, by simpa [and_assoc] using h⟩

/-- The kinds whose tokens have a fixed spelling. -/
def Kind.isFixed : Kind → Bool
  | .newline | .lineComment | .blockComment | .identifier | .rawString | .string | .rune
  | .number => false
  | _ => true

theorem punctuation_isFixed {e : List Char × Kind} (he : e ∈ punctuation) :
    e.2.isFixed = true := by
  have h : (punctuation.all fun e => e.2.isFixed) = true := by decide
  exact List.all_eq_true.mp h e he

/-! ## What begins at a place -/

/-- `Reads c cs is n`: something of this class begins at `c`, and of the text `cs` behind `c` the
first `n` characters belong to it. -/
inductive Reads (c : Char) (cs : List Char) : LexemeClass → Nat → Prop
  | blank : isBlank c = true → Reads c cs .blank (runLength isBlank cs)
  | lineFeed : c = '\n' → Reads c cs (.token .newline) 0
  | carriageReturn : c = '\r' →
      Reads c cs (.token .newline) (if cs.head? = some '\n' then 1 else 0)
  | lineComment : c = '/' → cs.head? = some '/' →
      Reads c cs (.token .lineComment) (runLength (fun d => !isLineEnd d) cs)
  | blockComment {n : Nat} : c = '/' → cs.head? = some '*' →
      blockCommentLength cs.tail = some n → Reads c cs (.token .blockComment) (n + 1)
  | openComment : c = '/' → cs.head? = some '*' → blockCommentLength cs.tail = none →
      Reads c cs (.fault .unterminatedComment) cs.length
  | identifier : isIdentifierStart c = true →
      Reads c cs (.token .identifier) (runLength isIdentifierPart cs)
  | number : c.isDigit = true → Reads c cs (.token .number) (numberLength cs)
  | rawString {n : Nat} : c = '\x60' → rawLength '\x60' cs = some n →
      Reads c cs (.token .rawString) n
  | openRawString : c = '\x60' → rawLength '\x60' cs = none →
      Reads c cs (.fault .invalidToken) cs.length
  | string {n : Nat} : c = '"' → quoteEnd '"' cs = .closed n → Reads c cs (.token .string) n
  | brokenString {n : Nat} : c = '"' → quoteEnd '"' cs = .broken n →
      Reads c cs (.fault .invalidToken) n
  | rune {n : Nat} : c = '\'' → quoteEnd '\'' cs = .closed n → n ≠ 1 →
      Reads c cs (.token .rune) n
  | emptyRune : c = '\'' → quoteEnd '\'' cs = .closed 1 → Reads c cs (.fault .invalidToken) 0
  | brokenRune {n : Nat} : c = '\'' → quoteEnd '\'' cs = .broken n →
      Reads c cs (.fault .invalidToken) n
  | fixed {spelling : List Char} {kind : Kind} :
      (c = '/' → cs.head? ≠ some '/' ∧ cs.head? ≠ some '*') →
      punctuation? (c :: cs) = some (spelling, kind) →
      Reads c cs (.token kind) (spelling.length - 1)
  | unknown : punctuation? (c :: cs) = none → Reads c cs (.fault .invalidToken) 0

/-- What is found is read in one of these ways. -/
theorem reads_munch (c : Char) (cs : List Char) : Reads c cs (munch c cs).1 (munch c cs).2 := by
  unfold munch
  split
  · exact .blank ‹_›
  split
  · exact .lineFeed ‹_›
  split
  · exact .carriageReturn ‹_›
  split
  · rename_i hc
    exact .lineComment hc.1 hc.2
  split
  · rename_i hc
    split
    · exact .blockComment hc.1 hc.2 ‹_›
    · exact .openComment hc.1 hc.2 ‹_›
  rename_i hline hblock
  split
  · exact .identifier ‹_›
  split
  · exact .number ‹_›
  split
  · split
    · exact .rawString ‹_› ‹_›
    · exact .openRawString ‹_› ‹_›
  split
  · split
    · exact .string ‹_› ‹_›
    · exact .brokenString ‹_› ‹_›
  split
  · split
    · exact .emptyRune ‹_› ‹_›
    · rename_i hne _
      exact .rune ‹_› ‹_› hne
    · exact .brokenRune ‹_› ‹_›
  split
  · exact .fixed (fun hc => ⟨fun hd => hline ⟨hc, hd⟩, fun hd => hblock ⟨hc, hd⟩⟩) ‹_›
  · exact .unknown ‹_›

theorem Reads.of_munch {c : Char} {cs : List Char} {is : LexemeClass} {n : Nat}
    (h : munch c cs = (is, n)) : Reads c cs is n := by
  have hreads := reads_munch c cs
  rwa [h] at hreads

theorem isBlank_iff {c : Char} : isBlank c = true ↔ c = ' ' ∨ c = '\t' ∨ c = '\x0c' := by
  simp [isBlank, or_assoc]

theorem isLineEnd_iff {c : Char} : isLineEnd c = true ↔ c = '\n' ∨ c = '\r' := by
  simp [isLineEnd]

theorem isIdentifierStart_ne {c : Char} (h : isIdentifierStart c = true) :
    isBlank c = false ∧ isLineEnd c = false ∧ c ≠ '/' := by
  refine ⟨?_, ?_, ?_⟩
  · rw [← Bool.not_eq_true, isBlank_iff]
    rintro (rfl | rfl | rfl) <;> cases h
  · rw [← Bool.not_eq_true, isLineEnd_iff]
    rintro (rfl | rfl) <;> cases h
  · rintro rfl
    cases h

theorem isAlpha_toNat {c : Char} (h : c.isAlpha = true) :
    (65 ≤ c.toNat ∧ c.toNat ≤ 90) ∨ (97 ≤ c.toNat ∧ c.toNat ≤ 122) := by
  have hc : (c.isUpper || c.isLower) = true := h
  rcases (Bool.or_eq_true _ _).mp hc with hu | hl
  · exact .inl (of_decide_eq_true hu)
  · have ⟨hlo, hhi⟩ := (Bool.and_eq_true _ _).mp hl
    exact .inr ⟨of_decide_eq_true hlo, of_decide_eq_true hhi⟩

theorem isDigit_toNat {c : Char} (h : c.isDigit = true) : 48 ≤ c.toNat ∧ c.toNat ≤ 57 :=
  Char.isDigit_iff_toNat.mp h

theorem isDigit_ne {c : Char} (h : c.isDigit = true) :
    isBlank c = false ∧ isLineEnd c = false ∧ c ≠ '/' ∧ isIdentifierStart c = false := by
  refine ⟨?_, ?_, ?_, ?_⟩
  · rw [← Bool.not_eq_true, isBlank_iff]
    rintro (rfl | rfl | rfl) <;> cases h
  · rw [← Bool.not_eq_true, isLineEnd_iff]
    rintro (rfl | rfl) <;> cases h
  · rintro rfl
    cases h
  · have hd := isDigit_toNat h
    have hlt : c.toNat < 128 := by omega
    have hne : c ≠ '_' := by
      rintro rfl
      cases h
    have ha : c.isAlpha = false := by
      rw [← Bool.not_eq_true]
      intro ha
      have := isAlpha_toNat ha
      omega
    simp [isIdentifierStart, hlt, hne, ha]

/-- What can be read as a token is what is found. -/
theorem Reads.munch_eq {c : Char} {cs : List Char} {kind : Kind} {n : Nat}
    (h : Reads c cs (.token kind) n) : munch c cs = (.token kind, n) := by
  cases h with
  | lineFeed hc =>
      subst hc
      rfl
  | carriageReturn hc =>
      subst hc
      rfl
  | lineComment hc hh =>
      subst hc
      simp [munch, hh, isBlank]
  | blockComment hc hh hn =>
      subst hc
      simp [munch, hh, hn, isBlank]
  | identifier hc =>
      obtain ⟨hb, hl, hs⟩ := isIdentifierStart_ne hc
      simp only [isLineEnd, Bool.or_eq_false_iff, beq_eq_false_iff_ne] at hl
      simp [munch, hb, hl, hs, hc]
  | number hc =>
      obtain ⟨hb, hl, hs, hi⟩ := isDigit_ne hc
      simp only [isLineEnd, Bool.or_eq_false_iff, beq_eq_false_iff_ne] at hl
      simp [munch, hb, hl, hs, hi, hc]
  | rawString hc hn =>
      subst hc
      have hi : isIdentifierStart '\x60' = false := rfl
      have hd : Char.isDigit '\x60' = false := rfl
      simp [munch, hn, hi, hd, isBlank]
  | string hc hn =>
      subst hc
      have hi : isIdentifierStart '"' = false := rfl
      have hd : Char.isDigit '"' = false := rfl
      simp [munch, hn, hi, hd, isBlank]
  | rune hc hn hne =>
      subst hc
      have hi : isIdentifierStart '\'' = false := rfl
      have hd : Char.isDigit '\'' = false := rfl
      simp [munch, hn, hi, hd, isBlank]
  | fixed hc hp =>
      obtain ⟨he, hpre, _⟩ := punctuation?_eq_some_iff.mp hp
      obtain ⟨d, tail, ht, hb, hl, hi, hd, hq⟩ := punctuation_head he
      rw [ht] at hpre
      obtain ⟨rfl, _⟩ := List.cons_prefix_cons.mp hpre
      simp only [isLineEnd, Bool.or_eq_false_iff, beq_eq_false_iff_ne] at hl
      have hline : ¬ (d = '/' ∧ cs.head? = some '/') := fun h => (hc h.1).1 h.2
      have hblock : ¬ (d = '/' ∧ cs.head? = some '*') := fun h => (hc h.1).2 h.2
      simp [munch, hb, hl, hi, hd, hq, hp, hline, hblock]

theorem munch_eq_token_iff {c : Char} {cs : List Char} {kind : Kind} {n : Nat} :
    munch c cs = (.token kind, n) ↔ Reads c cs (.token kind) n :=
  ⟨Reads.of_munch, Reads.munch_eq⟩

/-- At a place only one length is read as a token. -/
theorem Reads.length_eq {c : Char} {cs : List Char} {k k' : Kind} {n n' : Nat}
    (h : Reads c cs (.token k) n) (h' : Reads c cs (.token k') n') : n = n' := by
  have heq := h.munch_eq.symm.trans h'.munch_eq
  cases heq
  rfl

/-- What is found takes no more than there is. -/
theorem munch_le (c : Char) (cs : List Char) : (munch c cs).2 ≤ cs.length := by
  generalize hm : munch c cs = found
  obtain ⟨is, n⟩ := found
  cases Reads.of_munch hm with
  | blank => exact runLength_le _ cs
  | lineFeed => exact Nat.zero_le _
  | carriageReturn =>
      cases cs with
      | nil => simp
      | cons d cs =>
          split
          · exact Nat.succ_le_succ (Nat.zero_le _)
          · exact Nat.zero_le _
  | lineComment => exact runLength_le _ cs
  | blockComment hc hh hn =>
      obtain ⟨rest, rfl⟩ := List.head?_eq_some_iff.mp hh
      exact Nat.succ_le_succ (blockCommentLength_le hn).2
  | openComment => exact Nat.le_refl _
  | identifier => exact runLength_le _ cs
  | number => exact numberLength_le cs
  | rawString _ hn => exact (rawLength_le hn).2
  | openRawString => exact Nat.le_refl _
  | string _ hn => exact (quoteEnd_le hn).2
  | brokenString _ hn => exact quoteEnd_broken_le hn
  | rune _ hn => exact (quoteEnd_le hn).2
  | emptyRune => exact Nat.zero_le _
  | brokenRune _ hn => exact quoteEnd_broken_le hn
  | fixed _ hp =>
      have hlen := (punctuation?_eq_some_iff.mp hp).2.1.length_le
      rw [List.length_cons] at hlen
      exact Nat.sub_le_of_le_add hlen
  | unknown => exact Nat.zero_le _

/-- Only a blank is read as one. -/
theorem isBlank_of_munch {c : Char} {cs : List Char} {n : Nat} (h : munch c cs = (.blank, n)) :
    isBlank c = true := by
  cases Reads.of_munch h with
  | blank hc => exact hc

/-- Only the end of a line is read as a line break. -/
theorem isLineEnd_of_munch {c : Char} {cs : List Char} {n : Nat}
    (h : munch c cs = (.token .newline, n)) : isLineEnd c = true := by
  cases Reads.of_munch h with
  | lineFeed hc => exact isLineEnd_iff.mpr (.inl hc)
  | carriageReturn hc => exact isLineEnd_iff.mpr (.inr hc)
  | fixed _ hp => cases punctuation_isFixed (punctuation?_eq_some_iff.mp hp).1

end MethodSkeleton
