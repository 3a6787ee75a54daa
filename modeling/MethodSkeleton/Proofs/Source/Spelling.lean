/-
# `MethodSkeleton.Proofs.Source.Spelling` — what a token's text owes to the text behind it

The scanner looks ahead without a bound, but what it finds depends on the text behind a token
only in a narrow way.  By itself the text is a spelling of the token's kind (`Spells`), and
`StandsBefore x rest` says that in front of `rest` it is read as that token and nothing more.
Literals in quotes and block comments end by themselves, whatever follows; words, numbers and
line comments end at a character that is no part of them; a fixed spelling ends unless a longer
one fits.

So a spelling stands before a text unless it fuses with it (`Spells.standsBefore_iff`), provided
that the next character shields a line comment, a word, a number or an operator (`Shielded`).
-/
import MethodSkeleton.Proofs.Source.Reading

namespace MethodSkeleton

/-! ## Spellings -/

/-- The texts of a kind of token. -/
inductive Spells : Kind → List Char → Prop
  | lineFeed : Spells .newline ['\n']
  | carriageReturn : Spells .newline ['\r']
  | returnAndFeed : Spells .newline ['\r', '\n']
  | lineComment {body : List Char} : (∀ d ∈ body, isLineEnd d = false) →
      Spells .lineComment ('/' :: '/' :: body)
  | blockComment {body : List Char} : blockCommentLength body = some body.length →
      Spells .blockComment ('/' :: '*' :: body)
  | identifier {c : Char} {tail : List Char} : isIdentifierStart c = true →
      (∀ d ∈ tail, isIdentifierPart d = true) → Spells .identifier (c :: tail)
  | number {c : Char} {tail : List Char} : c.isDigit = true → numberLength tail = tail.length →
      Spells .number (c :: tail)
  | rawString {body : List Char} : rawLength '\x60' body = some body.length →
      Spells .rawString ('\x60' :: body)
  | string {body : List Char} : quoteEnd '"' body = .closed body.length →
      Spells .string ('"' :: body)
  | rune {body : List Char} : quoteEnd '\'' body = .closed body.length → body.length ≠ 1 →
      Spells .rune ('\'' :: body)
  | fixed {kind : Kind} {text : List Char} : (text, kind) ∈ punctuation → Spells kind text

/-- In front of `rest` the text of `x` is read as `x` and as nothing more. -/
def StandsBefore (x : Lexeme) (rest : List Char) : Prop :=
  ∃ c tail, x.text = c :: tail ∧ munch c (tail ++ rest) = (x.is, tail.length)

theorem standsBefore_token_iff {kind : Kind} {c : Char} {tail rest : List Char} :
    StandsBefore ⟨.token kind, c :: tail⟩ rest ↔
      Reads c (tail ++ rest) (.token kind) tail.length := by
  rw [← munch_eq_token_iff]
  constructor
  · rintro ⟨d, ds, ht, h⟩
    cases ht
    exact h
  · intro h
    exact ⟨c, tail, rfl, h⟩

/-- The spelling that is read is the text that it was read from. -/
theorem punctuation?_text {c : Char} {tail rest spelling : List Char} {kind : Kind}
    (h : punctuation? (c :: (tail ++ rest)) = some (spelling, kind))
    (hn : tail.length = spelling.length - 1) : spelling = c :: tail := by
  obtain ⟨he, hp, _⟩ := punctuation?_eq_some_iff.mp h
  obtain ⟨d, ds, ht, _⟩ := punctuation_head he
  obtain rfl : spelling = d :: ds := ht
  obtain ⟨rfl, hds⟩ := List.cons_prefix_cons.mp hp
  rw [(List.prefix_of_prefix_length_le hds (List.prefix_append _ _)
    (Nat.le_of_eq hn.symm)).eq_of_length hn.symm]

/-- What is read as a token is a spelling of its kind. -/
theorem StandsBefore.spells {kind : Kind} {text rest : List Char}
    (h : StandsBefore ⟨.token kind, text⟩ rest) : Spells kind text := by
  obtain ⟨c, tail, rfl, h⟩ := h
  rw [munch_eq_token_iff] at h
  generalize hn : tail.length = n at h
  cases h with
  | lineFeed hc =>
      rw [hc, List.length_eq_zero_iff.mp hn]
      exact .lineFeed
  | carriageReturn hc =>
      subst hc
      cases tail with
      | nil => exact .carriageReturn
      | cons d tail =>
          split at hn
          · rename_i hd
            cases hd
            obtain rfl : tail = [] := List.length_eq_zero_iff.mp (Nat.succ.inj hn)
            exact .returnAndFeed
          · cases hn
  | lineComment hc hh =>
      subst hc
      obtain ⟨hall, hend⟩ := runLength_append_eq_length_iff.mp hn.symm
      cases tail with
      | nil =>
          -- the second slash would be left over
          obtain ⟨rest, rfl⟩ := List.head?_eq_some_iff.mp hh
          cases hend
      | cons d tail =>
          cases hh
          exact .lineComment fun e he => by simpa using hall e (List.mem_cons_of_mem _ he)
  | blockComment hc hh hb =>
      subst hc
      cases tail with
      | nil => cases hn
      | cons d tail =>
          cases hh
          cases hn
          exact .blockComment (blockCommentLength_append_iff.mp hb)
  | identifier hc =>
      exact .identifier hc (runLength_append_eq_length_iff.mp hn.symm).1
  | number hc =>
      exact .number hc (numberLength_append_eq_length_iff.mp hn.symm).1
  | rawString hc hl =>
      subst hc hn
      exact .rawString (rawLength_append_iff.mp hl)
  | string hc hl =>
      subst hc hn
      exact .string ((quoteEnd_append_iff (by decide)).mp hl)
  | rune hc hl hne =>
      subst hc hn
      exact .rune ((quoteEnd_append_iff (by decide)).mp hl) hne
  | fixed _ hp =>
      rw [← punctuation?_text hp hn]
      exact .fixed (punctuation?_eq_some_iff.mp hp).1

/-! ## Fusing -/

/-- What is written behind `text` is read as a part of it: a longer fixed spelling begins with
`text` and goes on with `rest`, or a number without a point is followed by one. -/
def Fuses (text rest : List Char) : Prop :=
  (∃ e ∈ punctuation, text.length < e.1.length ∧ e.1 <+: text ++ rest) ∨
    (text.head?.any Char.isDigit = true ∧ '.' ∉ text ∧ rest.head? = some '.')

instance (text rest : List Char) : Decidable (Fuses text rest) :=
  inferInstanceAs (Decidable (_ ∨ _))

/-- A character that goes on with no word and no number and makes no comment of a slash. -/
def isShield (c : Char) : Bool := !isIdentifierPart c && c != '/' && c != '*'

/-- Nothing in `rest` can go on with a line comment, a word, a number's digits or a slash. -/
structure Shielded (kind : Kind) (rest : List Char) : Prop where
  line : kind = .lineComment → rest.head?.all isLineEnd = true
  word : kind ∈ [.identifier, .number, .operator] → rest.head?.all isShield = true

theorem isShield_iff {c : Char} :
    isShield c = true ↔ isIdentifierPart c = false ∧ c ≠ '/' ∧ c ≠ '*' := by
  simp [isShield, and_assoc]

theorem isIdentifierPart_of_isNumberPart {c : Char} (h : isNumberPart c = true) :
    isIdentifierPart c = true := by
  have hc : (c.isAlpha = true ∨ c.isDigit = true) ∨ c = '_' := by
    simpa [isNumberPart, Char.isAlphanum] using h
  have hlt : c.toNat < 128 := by
    rcases hc with (hc | hc) | rfl
    · have := isAlpha_toNat hc
      omega
    · have := isDigit_toNat hc
      omega
    · decide
  rcases hc with (hc | hc) | rfl <;> simp [isIdentifierPart, isIdentifierStart, *]

theorem not_prefix_of_head {e : List Char × Kind} {c : Char} {cs : List Char}
    (he : e ∈ punctuation)
    (hc : isIdentifierStart c = true ∨ c.isDigit = true ∨ c = '\x60' ∨ c = '"' ∨ c = '\'') :
    ¬ e.1 <+: c :: cs := by
  intro hp
  obtain ⟨d, ds, ht, _, _, hi, hd, hq⟩ := punctuation_head he
  rw [ht] at hp
  obtain ⟨rfl, _⟩ := List.cons_prefix_cons.mp hp
  simp [hi, hd, hq] at hc

/-- A text that begins like a word or a literal in quotes fuses with nothing. -/
theorem not_fuses_of_head {c : Char} {tail rest : List Char} (hd : c.isDigit = false)
    (hc : isIdentifierStart c = true ∨ c = '\x60' ∨ c = '"' ∨ c = '\'') :
    ¬ Fuses (c :: tail) rest := by
  rintro (⟨e, he, _, hp⟩ | ⟨h, _⟩)
  · exact not_prefix_of_head he (hc.imp_right .inr) hp
  · simp [hd] at h

theorem slash_head {e : List Char × Kind} (he : e ∈ punctuation) (h : e.1.head? = some '/') :
    e = (['/', '='], .operator) ∨ e = (['/'], .operator) := by
  have := List.all_eq_true.mp (show (punctuation.all fun e => e.1.head? != some '/' ||
    (e == (['/', '='], .operator) || e == (['/'], .operator))) = true by decide) e he
  simpa [h] using this

/-- Neither does a comment: no spelling that begins with a slash is longer than two. -/
theorem not_fuses_of_slash {d : Char} {tail rest : List Char} :
    ¬ Fuses ('/' :: d :: tail) rest := by
  rintro (⟨e, he, hlt, hp⟩ | ⟨h, _⟩)
  · have hhead : e.1.head? = some '/' := by
      obtain ⟨c, ds, ht, _⟩ := punctuation_head he
      rw [ht] at hp
      obtain ⟨rfl, _⟩ := List.cons_prefix_cons.mp hp
      rw [ht]
      rfl
    rcases slash_head he hhead with rfl | rfl
    · simp only [List.length_cons, List.length_nil] at hlt
      omega
    · simp only [List.length_cons, List.length_nil] at hlt
      omega
  · cases h

theorem Shielded.line_end {rest : List Char} (h : Shielded .lineComment rest) :
    rest.head?.any (fun d => !isLineEnd d) = false := by
  have hl := h.line rfl
  cases rest with
  | nil => rfl
  | cons d rest => simpa using hl

theorem Shielded.word_end {kind : Kind} {rest : List Char} (h : Shielded kind rest)
    (hk : kind ∈ [.identifier, .number, .operator]) :
    rest.head?.any isIdentifierPart = false ∧ rest.head?.any isNumberPart = false ∧
      rest.head? ≠ some '/' ∧ rest.head? ≠ some '*' := by
  have hw := h.word hk
  cases rest with
  | nil => simp
  | cons d rest =>
      obtain ⟨hd, hs⟩ := isShield_iff.mp hw
      refine ⟨hd, ?_, by simpa using hs⟩
      show isNumberPart d = false
      rw [← Bool.not_eq_true]
      intro hn
      rw [isIdentifierPart_of_isNumberPart hn] at hd
      cases hd

/-! ## Standing before a text -/

theorem standsBefore_number_iff {c : Char} {tail rest : List Char} (hc : c.isDigit = true) :
    StandsBefore ⟨.token .number, c :: tail⟩ rest ↔ numberLength tail = tail.length ∧
      rest.head?.any isNumberPart = false ∧ ('.' ∈ tail ∨ rest.head? ≠ some '.') := by
  rw [standsBefore_token_iff, ← numberLength_append_eq_length_iff]
  constructor
  · intro h
    exact (Reads.number hc).length_eq h
  · intro h
    rw [← h]
    exact .number hc

theorem standsBefore_fixed_iff {kind : Kind} {c : Char} {tail rest : List Char}
    (he : (c :: tail, kind) ∈ punctuation)
    (hs : c :: tail = ['/'] → rest.head? ≠ some '/' ∧ rest.head? ≠ some '*') :
    StandsBefore ⟨.token kind, c :: tail⟩ rest ↔
      ∀ f ∈ punctuation, f.1 <+: c :: tail ++ rest → f.1.length ≤ tail.length + 1 := by
  have hslash : c = '/' → (tail ++ rest).head? ≠ some '/' ∧ (tail ++ rest).head? ≠ some '*' := by
    rintro rfl
    rcases slash_head he rfl with h | h
    · cases h
      exact ⟨by simp, by simp⟩
    · cases h
      exact hs rfl
  rw [standsBefore_token_iff]
  constructor
  · intro h f hf hp
    cases hg : punctuation? (c :: (tail ++ rest)) with
    | none =>
        have := List.find?_eq_none.mp hg f hf
        exact absurd (List.isPrefixOf_iff_prefix.mpr hp) this
    | some g =>
        obtain ⟨_, _, hmax⟩ := punctuation?_eq_some_iff.mp hg
        have hlen := (Reads.fixed hslash hg).length_eq h
        have := hmax f hf hp
        omega
  · intro h
    show Reads c (tail ++ rest) (.token kind) ((c :: tail).length - 1)
    exact .fixed hslash (punctuation?_eq_some_iff.mpr ⟨he, List.prefix_append _ _, h⟩)

/-- **When a spelling is read as itself.**  It stands before a text exactly if it does not fuse
with it. -/
theorem Spells.standsBefore_iff {kind : Kind} {text rest : List Char} (h : Spells kind text)
    (hk : kind ≠ .newline) (hs : Shielded kind rest) :
    StandsBefore ⟨.token kind, text⟩ rest ↔ ¬ Fuses text rest := by
  cases h with
  | lineFeed => exact absurd rfl hk
  | carriageReturn => exact absurd rfl hk
  | returnAndFeed => exact absurd rfl hk
  | @lineComment body hall =>
      refine iff_of_true (standsBefore_token_iff.mpr ?_) not_fuses_of_slash
      have hrun : runLength (fun d => !isLineEnd d) ('/' :: body ++ rest) =
          ('/' :: body).length := by
        refine runLength_append_eq_length_iff.mpr ⟨?_, hs.line_end⟩
        exact List.forall_mem_cons.mpr ⟨rfl, fun d hd => by simp [hall d hd]⟩
      rw [← hrun]
      exact .lineComment rfl rfl
  | blockComment hb =>
      refine iff_of_true (standsBefore_token_iff.mpr ?_) not_fuses_of_slash
      exact .blockComment rfl rfl (blockCommentLength_append_iff.mpr hb)
  | @identifier c tail hc hall =>
      have hd : c.isDigit = false := by
        rw [← Bool.not_eq_true]
        intro hd
        rw [(isDigit_ne hd).2.2.2] at hc
        cases hc
      refine iff_of_true (standsBefore_token_iff.mpr ?_) (not_fuses_of_head hd (.inl hc))
      rw [← runLength_append_eq_length_iff.mpr ⟨hall, (hs.word_end (by decide)).1⟩]
      exact .identifier hc
  | @number c tail hc hlen =>
      obtain ⟨_, hend, _⟩ := hs.word_end (by decide)
      have hne : '.' ≠ c := by
        rintro rfl
        cases hc
      have hfixed : ¬ ∃ e ∈ punctuation, (c :: tail).length < e.1.length ∧
          e.1 <+: c :: tail ++ rest :=
        fun ⟨e, he, _, hp⟩ => not_prefix_of_head he (.inr (.inl hc)) hp
      rw [standsBefore_number_iff hc, Fuses, or_iff_right hfixed]
      simp only [hlen, hend, hc, hne, List.head?_cons, Option.any_some, List.mem_cons, true_and,
        false_or]
      tauto
  | rawString hl =>
      refine iff_of_true (standsBefore_token_iff.mpr ?_) (not_fuses_of_head rfl (by simp))
      exact .rawString rfl (rawLength_append_iff.mpr hl)
  | string hl =>
      refine iff_of_true (standsBefore_token_iff.mpr ?_) (not_fuses_of_head rfl (by simp))
      exact .string rfl ((quoteEnd_append_iff (by decide)).mpr hl)
  | rune hl hne =>
      refine iff_of_true (standsBefore_token_iff.mpr ?_) (not_fuses_of_head rfl (by simp))
      exact .rune rfl ((quoteEnd_append_iff (by decide)).mpr hl) hne
  | fixed he =>
      obtain ⟨c, tail, ht, _, _, _, hd, _⟩ := punctuation_head he
      obtain rfl : text = c :: tail := ht
      have hslash : c :: tail = ['/'] → rest.head? ≠ some '/' ∧ rest.head? ≠ some '*' := by
        intro hc
        cases hc
        rcases slash_head he rfl with h | h
        · cases h
        · obtain rfl : kind = .operator := (Prod.mk.inj h).2
          exact (hs.word_end (by decide)).2.2
      rw [standsBefore_fixed_iff he hslash, Fuses, or_iff_left (by simp [hd])]
      constructor
      · rintro h ⟨f, hf, hlt, hp⟩
        exact absurd (h f hf hp) (Nat.not_le.mpr hlt)
      · intro h f hf hp
        by_contra hlt
        exact h ⟨f, hf, Nat.not_le.mp hlt, hp⟩

/-- A line comment goes on to the end of its line. -/
theorem StandsBefore.line_end {text rest : List Char}
    (h : StandsBefore ⟨.token .lineComment, text⟩ rest) : rest.head?.all isLineEnd = true := by
  obtain ⟨c, tail, _, h⟩ := h
  rw [munch_eq_token_iff] at h
  generalize hn : tail.length = n at h
  cases h with
  | lineComment =>
      obtain ⟨_, hend⟩ := runLength_append_eq_length_iff.mp hn.symm
      cases rest with
      | nil => rfl
      | cons d rest => simpa using hend
  | fixed _ hp => cases punctuation_isFixed (punctuation?_eq_some_iff.mp hp).1

/-! ## Where a spelling begins and ends -/

theorem Spells.mem_punctuation {kind : Kind} {text : List Char} (h : Spells kind text)
    (hk : kind.isFixed = true) : (text, kind) ∈ punctuation := by
  cases h with
  | fixed he => exact he
  | _ => cases hk

theorem Spells.head_eq {kind : Kind} {text : List Char} (h : Spells kind text)
    (hk : kind ≠ .newline) :
    ∃ c tail, text = c :: tail ∧ isBlank c = false ∧ isLineEnd c = false := by
  cases h with
  | lineFeed => exact absurd rfl hk
  | carriageReturn => exact absurd rfl hk
  | returnAndFeed => exact absurd rfl hk
  | identifier hc => exact ⟨_, _, rfl, (isIdentifierStart_ne hc).1, (isIdentifierStart_ne hc).2.1⟩
  | number hc => exact ⟨_, _, rfl, (isDigit_ne hc).1, (isDigit_ne hc).2.1⟩
  | fixed he =>
      obtain ⟨c, tail, ht, hb, hl, _⟩ := punctuation_head he
      exact ⟨c, tail, ht, hb, hl⟩
  | _ => exact ⟨_, _, rfl, rfl, rfl⟩

theorem blockCommentLength_getLast? {cs : List Char} (h : blockCommentLength cs = some cs.length) :
    cs.getLast? = some '/' := by
  induction cs with
  | nil => cases h
  | cons c cs ih =>
      rw [blockCommentLength_cons] at h
      split at h
      · rename_i hc
        obtain ⟨rest, rfl⟩ := List.head?_eq_some_iff.mp hc.2
        have hr : rest = [] := by simpa using h
        rw [hr]
        rfl
      · obtain ⟨n, hn, hlen⟩ := Option.map_eq_some_iff.mp h
        rw [List.getLast?_cons, ih (by rw [hn]; simpa using hlen)]
        rfl

theorem rawLength_getLast? {q : Char} {cs : List Char} (h : rawLength q cs = some cs.length) :
    cs.getLast? = some q := by
  induction cs with
  | nil => cases h
  | cons c cs ih =>
      rw [rawLength] at h
      split at h
      · rename_i hc
        have hcs : cs = [] := by simpa using h
        rw [hc, hcs]
        rfl
      · obtain ⟨n, hn, hlen⟩ := Option.map_eq_some_iff.mp h
        rw [List.getLast?_cons, ih (by rw [hn]; simpa using hlen)]
        rfl

theorem quoteEnd_getLast? {q : Char} {cs : List Char} (h : quoteEnd q cs = .closed cs.length) :
    cs.getLast? = some q := by
  fun_induction quoteEnd q cs with
  | case1 => cases h
  | case2 => cases h
  | case3 c cs hc ih =>
      obtain ⟨m, hm, hlen⟩ := QuoteEnd.after_eq_closed_iff.mp h
      rw [List.getLast?_cons, List.getLast?_cons, ih (by rw [hm]; simpa using hlen.symm)]
      rfl
  | case4 cs =>
      have hcs : cs = [] := by simpa [eq_comm] using h
      rw [hcs]
      rfl
  | case5 => cases h
  | case6 c cs _ _ _ ih =>
      obtain ⟨m, hm, hlen⟩ := QuoteEnd.after_eq_closed_iff.mp h
      rw [List.getLast?_cons, ih (by rw [hm]; simpa using hlen.symm)]
      rfl

theorem numberLength_mem {cs : List Char} (h : numberLength cs = cs.length) :
    ∀ d ∈ cs, isNumberPart d = true ∨ d = '.' := by
  induction cs with
  | nil => simp
  | cons c cs ih =>
      rw [numberLength_cons] at h
      split at h
      · rename_i hc
        have hcs := ih (Nat.succ.inj h)
        simpa [hc] using hcs
      split at h
      · rename_i hc
        have hall := runLength_eq_length_iff.mp (Nat.succ.inj h)
        simp only [List.mem_cons, forall_eq_or_imp, hc, or_true, true_and]
        exact fun d hd => .inl (hall d hd)
      · cases h

theorem isIdentifierPart_ne {c : Char} (h : isIdentifierPart c = true) :
    isBlank c = false ∧ isLineEnd c = false := by
  constructor
  · rw [← Bool.not_eq_true, isBlank_iff]
    rintro (rfl | rfl | rfl) <;> cases h
  · rw [← Bool.not_eq_true, isLineEnd_iff]
    rintro (rfl | rfl) <;> cases h

/-- No token but a line break ends in the end of a line, and only a line comment can end in a
blank. -/
theorem Spells.last_eq {kind : Kind} {text : List Char} (h : Spells kind text)
    (hk : kind ≠ .newline) : ∃ c, text.getLast? = some c ∧ isLineEnd c = false ∧
      (kind ≠ .lineComment → isBlank c = false) := by
  have hlast : ∀ (c : Char) (tail : List Char),
      ∃ d, (c :: tail).getLast? = some d ∧ d ∈ c :: tail := by
    intro c tail
    have hd := List.getLast?_eq_some_getLast (List.cons_ne_nil c tail)
    exact ⟨_, hd, List.mem_of_getLast? hd⟩
  cases h with
  | lineFeed => exact absurd rfl hk
  | carriageReturn => exact absurd rfl hk
  | returnAndFeed => exact absurd rfl hk
  | @lineComment body hall =>
      obtain ⟨d, hd, hmem⟩ := hlast '/' ('/' :: body)
      refine ⟨d, hd, ?_, fun hne => absurd rfl hne⟩
      simp only [List.mem_cons] at hmem
      rcases hmem with rfl | rfl | hmem
      · rfl
      · rfl
      · exact hall d hmem
  | blockComment hb =>
      rw [List.getLast?_cons, List.getLast?_cons, blockCommentLength_getLast? hb]
      exact ⟨_, rfl, rfl, fun _ => rfl⟩
  | @identifier c tail hc hall =>
      obtain ⟨d, hd, hmem⟩ := hlast c tail
      have hpart : isIdentifierPart d = true := by
        rcases List.mem_cons.mp hmem with rfl | hmem
        · exact isIdentifierPart_of_start hc
        · exact hall d hmem
      exact ⟨d, hd, (isIdentifierPart_ne hpart).2, fun _ => (isIdentifierPart_ne hpart).1⟩
  | @number c tail hc hlen =>
      obtain ⟨d, hd, hmem⟩ := hlast c tail
      have hne : isBlank d = false ∧ isLineEnd d = false := by
        rcases List.mem_cons.mp hmem with rfl | hmem
        · exact ⟨(isDigit_ne hc).1, (isDigit_ne hc).2.1⟩
        · rcases numberLength_mem hlen d hmem with hpart | rfl
          · exact isIdentifierPart_ne (isIdentifierPart_of_isNumberPart hpart)
          · exact ⟨rfl, rfl⟩
      exact ⟨d, hd, hne.2, fun _ => hne.1⟩
  | rawString hl =>
      rw [List.getLast?_cons, rawLength_getLast? hl]
      exact ⟨_, rfl, rfl, fun _ => rfl⟩
  | string hl =>
      rw [List.getLast?_cons, quoteEnd_getLast? hl]
      exact ⟨_, rfl, rfl, fun _ => rfl⟩
  | rune hl =>
      rw [List.getLast?_cons, quoteEnd_getLast? hl]
      exact ⟨_, rfl, rfl, fun _ => rfl⟩
  | fixed he =>
      have hall : (punctuation.all fun e => e.1.getLast?.any fun c =>
          !isLineEnd c && !isBlank c) = true := by decide
      obtain ⟨c, hc, hne⟩ := Option.any_eq_true _ _ |>.mp (List.all_eq_true.mp hall _ he)
      simp only [Bool.and_eq_true, Bool.not_eq_true'] at hne
      exact ⟨c, hc, hne.1, fun _ => hne.2⟩

end MethodSkeleton
