/-
# `MethodSkeleton.Proofs.Source.LongestMatch` — the scanner finds the longest match

Every kind of token has a pattern (`pattern`), and so have blanks.  The scanner does not try the
patterns one against the other; it looks at the first characters and then follows one of them.  All
the same, wherever it begins a lexeme with anything but a digit or `/*`, it finds the longest text
that a pattern matches there, and a fault only if none matches (`scan_longest_match`).  A block
comment has a pattern for its opening only, and goes on to the first `*/` behind that.

Most patterns match one length at most at a place.  Those that match several are runs, of which the
scanner takes the whole, and line breaks; and of the fixed spellings it takes the longest that fits.
A slash in front of another is the only spelling beyond which another pattern goes.  So for every
match the scanner is shown to find a token that is at least as long, and of the same kind if it is
as long (`Spells.munch_of_longest`), by cases on the kind of the match.
-/
import MethodSkeleton.Proofs.Source.Numeral
import MethodSkeleton.Proofs.Source.Places
import MethodSkeleton.Proofs.Source.Trivia

namespace MethodSkeleton

open scoped Computability

/-! ## The patterns -/

/-- One text of the language, or several, run together. -/
def oneOrMore (L : Language Char) : Language Char := L * L∗

/-- `[^q\\\n\r]|\\.`, an item of a text between quotes `q`. -/
def quotedItem (q : Char) : Language Char :=
  oneOf (· ∉ [q, '\\', '\n', '\r']) + oneOf (· = '\\') * oneOf (· ≠ '\n')

/-- `\r\n|\n|\r`. -/
def lineBreaks : Language Char := {['\r', '\n']} + {['\n']} + {['\r']}

/-- `//[^\n\r]*`. -/
def lineComments : Language Char := {['/', '/']} * (oneOf (· ∉ ['\n', '\r']))∗

/-- `[_\p{XID_Start}][_\p{XID_Continue}]*`. -/
def identifiers : Language Char := oneOf (isIdentifierStart ·) * (oneOf (isIdentifierPart ·))∗

/-- A text of the language between two quotes `q`. -/
def between (q : Char) (L : Language Char) : Language Char := oneOf (· = q) * L * oneOf (· = q)

/-- The pattern of a kind of token.  For kinds that are none of the first eight it is the list of
their spellings, and of a block comment it is the opening only. -/
def Kind.pattern : Kind → Language Char
  | .newline => lineBreaks
  | .lineComment => lineComments
  | .blockComment => {['/', '*']}
  | .identifier => identifiers
  | .rawString => between '\x60' (oneOf (· ≠ '\x60'))∗
  | .string => between '"' (quotedItem '"')∗
  | .rune => between '\'' (oneOrMore (quotedItem '\''))
  | .number => numeral
  | kind => {w | (w, kind) ∈ punctuation}

/-- The pattern of what the scanner may find; no pattern is that of a fault. -/
def LexemeClass.pattern : LexemeClass → Language Char
  | .blank => oneOrMore (oneOf (· ∈ ['\t', '\x0c', ' ']))
  | .token kind => kind.pattern
  | .fault _ => 0

/-- At the head of `rest` the pattern of the class matches `w`, which is not empty. -/
structure Matches (rest : List Char) (is : LexemeClass) (w : List Char) : Prop where
  nonempty : w ≠ []
  front : w <+: rest
  mem : w ∈ is.pattern

/-- The lexeme is matched by the pattern of its class at the head of `rest`, no pattern matches
more there, and no other pattern matches as much. -/
structure IsLongestMatch (rest : List Char) (x : Lexeme) : Prop where
  matched : Matches rest x.is x.text
  longest : ∀ is w, Matches rest is w → w.length ≤ x.text.length
  only : ∀ is, Matches rest is x.text → is = x.is

/-! ## Languages -/

theorem mem_oneOrMore_oneOf_iff {p : Char → Prop} {w : List Char} :
    w ∈ oneOrMore (oneOf p) ↔ w ≠ [] ∧ ∀ c ∈ w, p c := by
  simp only [oneOrMore, Language.mem_mul, mem_oneOf_iff, mem_kstar_oneOf_iff]
  constructor
  · rintro ⟨_, ⟨c, hc, rfl⟩, ds, hds, rfl⟩
    exact ⟨List.cons_ne_nil c ds, List.forall_mem_cons.mpr ⟨hc, hds⟩⟩
  · rintro ⟨hne, hall⟩
    obtain ⟨c, ds, rfl⟩ := List.exists_cons_of_ne_nil hne
    obtain ⟨hc, hds⟩ := List.forall_mem_cons.mp hall
    exact ⟨[c], ⟨c, hc, rfl⟩, ds, hds, rfl⟩

/-- A text of one item or more is one of any number of items that is not empty. -/
theorem mem_oneOrMore_iff {L : Language Char} (hL : [] ∉ L) {w : List Char} :
    w ∈ oneOrMore L ↔ w ≠ [] ∧ w ∈ L∗ := by
  rw [← Language.one_add_self_mul_kstar_eq_kstar, Language.mem_add, Language.mem_one, oneOrMore]
  constructor
  · intro h
    refine ⟨?_, .inr h⟩
    rintro rfl
    obtain ⟨u, hu, v, _, huv⟩ := Language.mem_mul.mp h
    exact hL ((List.append_eq_nil_iff.mp huv).1 ▸ hu)
  · rintro ⟨hne, h⟩
    exact h.resolve_left hne

theorem mem_quotedItem_iff {q : Char} {w : List Char} : w ∈ quotedItem q ↔
    (∃ c, c ∉ [q, '\\', '\n', '\r'] ∧ w = [c]) ∨ ∃ c, c ≠ '\n' ∧ w = ['\\', c] := by
  simp only [quotedItem, Language.mem_add, Language.mem_mul, mem_oneOf_iff]
  refine or_congr_right ⟨?_, ?_⟩
  · rintro ⟨_, ⟨_, rfl, rfl⟩, _, ⟨c, hc, rfl⟩, rfl⟩
    exact ⟨c, hc, rfl⟩
  · rintro ⟨c, hc, rfl⟩
    exact ⟨['\\'], ⟨'\\', rfl, rfl⟩, [c], ⟨c, hc, rfl⟩, rfl⟩

theorem nil_not_mem_quotedItem (q : Char) : [] ∉ quotedItem q := by
  simp [mem_quotedItem_iff]

/-! ## Texts in quotes -/

@[simp] theorem QuoteEnd.after_zero (e : QuoteEnd) : e.after 0 = e := by
  cases e <;> rfl

theorem QuoteEnd.after_after (e : QuoteEnd) (n m : Nat) :
    (e.after n).after m = e.after (m + n) := by
  cases e <;> simp only [QuoteEnd.after] <;> congr 1 <;> omega

/-- An item does not end a text in quotes. -/
theorem quoteEnd_quotedItem {q : Char} {w : List Char} (hw : w ∈ quotedItem q) (cs : List Char) :
    quoteEnd q (w ++ cs) = (quoteEnd q cs).after w.length := by
  rcases mem_quotedItem_iff.mp hw with ⟨c, hc, rfl⟩ | ⟨c, hc, rfl⟩
  · simp only [List.mem_cons, List.not_mem_nil, or_false, not_or] at hc
    have hline : isLineEnd c = false := by simp [isLineEnd, hc]
    rw [List.singleton_append, quoteEnd_cons hc.2.1, if_neg hc.1, hline]
    rfl
  · rw [List.cons_append, List.singleton_append, quoteEnd, if_neg hc]
    rfl

theorem quoteEnd_quotedItems {q : Char} {w : List Char} (hw : w ∈ (quotedItem q)∗)
    (cs : List Char) : quoteEnd q (w ++ cs) = (quoteEnd q cs).after w.length := by
  obtain ⟨items, rfl, hitems⟩ := Language.mem_kstar.mp hw
  clear hw
  induction items with
  | nil => simp
  | cons item items ih =>
      obtain ⟨hitem, hitems⟩ := List.forall_mem_cons.mp hitems
      rw [List.flatten_cons, List.append_assoc, quoteEnd_quotedItem hitem, ih hitems,
        QuoteEnd.after_after, List.length_append]

theorem quotedItems_cons {q : Char} {w ws : List Char} (hw : w ∈ quotedItem q)
    (hws : ws ∈ (quotedItem q)∗) : w ++ ws ∈ (quotedItem q)∗ := by
  rw [← Language.one_add_self_mul_kstar_eq_kstar]
  exact .inr (Language.append_mem_mul hw hws)

/-- In front of the closing quote of a text stand items. -/
theorem exists_quotedItems {q : Char} {cs : List Char} {n : Nat}
    (h : quoteEnd q cs = .closed n) :
    ∃ w after, cs = w ++ q :: after ∧ w ∈ (quotedItem q)∗ ∧ n = w.length + 1 := by
  fun_induction quoteEnd q cs generalizing n with
  | case1 => cases h
  | case2 => cases h
  | case3 c cs hc ih =>
      obtain ⟨m, hm, rfl⟩ := QuoteEnd.after_eq_closed_iff.mp h
      obtain ⟨w, after, rfl, hw, rfl⟩ := ih hm
      exact ⟨['\\', c] ++ w, after, rfl,
        quotedItems_cons (mem_quotedItem_iff.mpr (.inr ⟨c, hc, rfl⟩)) hw, by simp⟩
  | case4 cs =>
      cases h
      exact ⟨[], cs, rfl, Language.nil_mem_kstar _, rfl⟩
  | case5 => cases h
  | case6 c cs _ hc hb ih =>
      obtain ⟨m, hm, rfl⟩ := QuoteEnd.after_eq_closed_iff.mp h
      obtain ⟨w, after, rfl, hw, rfl⟩ := ih hm
      have hplain : c ∉ [q, '\\', '\n', '\r'] := by
        simp only [isLineEnd, Bool.or_eq_true, beq_iff_eq, decide_eq_true_eq, not_or] at hb
        simp [hc, hb]
      exact ⟨[c] ++ w, after, rfl,
        quotedItems_cons (mem_quotedItem_iff.mpr (.inl ⟨c, hplain, rfl⟩)) hw, by simp⟩

/-- A text is closed at its end exactly if it is made of items and the quote. -/
theorem quoteEnd_eq_length_iff {q : Char} (hq : q ≠ '\\') {cs : List Char} :
    quoteEnd q cs = .closed cs.length ↔ ∃ w, cs = w ++ [q] ∧ w ∈ (quotedItem q)∗ := by
  constructor
  · intro h
    obtain ⟨w, after, rfl, hw, hlength⟩ := exists_quotedItems h
    obtain rfl : after = [] := by simpa using hlength
    exact ⟨w, rfl, hw⟩
  · rintro ⟨w, rfl, hw⟩
    rw [quoteEnd_quotedItems hw, quoteEnd_cons hq, if_pos rfl, List.length_append]
    exact congrArg QuoteEnd.closed (Nat.add_comm 1 w.length)

theorem rawLength_eq_length_iff {q : Char} {cs : List Char} :
    rawLength q cs = some cs.length ↔ ∃ w, cs = w ++ [q] ∧ ∀ c ∈ w, c ≠ q := by
  induction cs with
  | nil => simp [rawLength]
  | cons c cs ih =>
      rw [rawLength]
      split
      · rename_i hc
        constructor
        · intro h
          obtain rfl : cs = [] := by simpa using h
          exact ⟨[], by rw [hc]; rfl, by simp⟩
        · rintro ⟨w, hw, hall⟩
          cases w with
          | nil => simp [(List.cons.inj hw).2]
          | cons d w => exact absurd ((List.cons.inj hw).1 ▸ hc) (hall d List.mem_cons_self)
      · rename_i hc
        have hmap : (rawLength q cs).map (· + 1) = some (c :: cs).length ↔
            rawLength q cs = some cs.length := by simp
        rw [hmap, ih]
        constructor
        · rintro ⟨w, rfl, hall⟩
          exact ⟨c :: w, rfl, List.forall_mem_cons.mpr ⟨hc, hall⟩⟩
        · rintro ⟨w, hw, hall⟩
          cases w with
          | nil => exact absurd (List.cons.inj hw).1 hc
          | cons d w =>
              exact ⟨w, (List.cons.inj hw).2, fun e he => hall e (List.mem_cons_of_mem d he)⟩

/-! ## Spellings and patterns -/

theorem mem_text_iff {v w : List Char} : w ∈ ({v} : Language Char) ↔ w = v := Iff.rfl

theorem mem_between_iff {q : Char} {L : Language Char} {w : List Char} :
    w ∈ between q L ↔ ∃ body, body ∈ L ∧ w = q :: (body ++ [q]) := by
  simp only [between, Language.mem_mul, mem_oneOf_iff]
  constructor
  · rintro ⟨_, ⟨_, ⟨_, rfl, rfl⟩, body, hbody, rfl⟩, _, ⟨_, rfl, rfl⟩, rfl⟩
    exact ⟨body, hbody, rfl⟩
  · rintro ⟨body, hbody, rfl⟩
    exact ⟨q :: body, ⟨[q], ⟨q, rfl, rfl⟩, body, hbody, rfl⟩, [q], ⟨q, rfl, rfl⟩, rfl⟩

section
variable {w : List Char}

theorem mem_lineBreaks_iff : w ∈ lineBreaks ↔ Spells .newline w := by
  simp only [lineBreaks, Language.mem_add, mem_text_iff]
  constructor
  · rintro ((rfl | rfl) | rfl)
    · exact .returnAndFeed
    · exact .lineFeed
    · exact .carriageReturn
  · intro h
    cases h with
    | lineFeed => exact .inl (.inr rfl)
    | carriageReturn => exact .inr rfl
    | returnAndFeed => exact .inl (.inl rfl)
    | fixed he => cases punctuation_isFixed he

theorem mem_lineComments_iff : w ∈ lineComments ↔ Spells .lineComment w := by
  have hbody : ∀ body : List Char, (∀ d ∈ body, d ∉ ['\n', '\r']) ↔
      ∀ d ∈ body, isLineEnd d = false := by simp [isLineEnd]
  simp only [lineComments, Language.mem_mul, mem_text_iff, mem_kstar_oneOf_iff, hbody]
  constructor
  · rintro ⟨_, rfl, body, hbody, rfl⟩
    exact .lineComment hbody
  · intro h
    cases h with
    | @lineComment body hbody => exact ⟨_, rfl, body, hbody, rfl⟩
    | fixed he => cases punctuation_isFixed he

theorem mem_identifiers_iff : w ∈ identifiers ↔ Spells .identifier w := by
  simp only [identifiers, Language.mem_mul, mem_oneOf_iff, mem_kstar_oneOf_iff]
  constructor
  · rintro ⟨_, ⟨c, hc, rfl⟩, tail, htail, rfl⟩
    exact .identifier hc htail
  · intro h
    cases h with
    | @identifier c tail hc htail => exact ⟨[c], ⟨c, hc, rfl⟩, tail, htail, rfl⟩
    | fixed he => cases punctuation_isFixed he

theorem mem_between_rawQuotes_iff :
    w ∈ between '\x60' (oneOf (· ≠ '\x60'))∗ ↔ Spells .rawString w := by
  simp only [mem_between_iff, mem_kstar_oneOf_iff]
  constructor
  · rintro ⟨body, hbody, rfl⟩
    exact .rawString (rawLength_eq_length_iff.mpr ⟨body, rfl, hbody⟩)
  · intro h
    cases h with
    | rawString hl =>
        obtain ⟨body, rfl, hbody⟩ := rawLength_eq_length_iff.mp hl
        exact ⟨body, hbody, rfl⟩
    | fixed he => cases punctuation_isFixed he

theorem mem_between_doubleQuotes_iff :
    w ∈ between '"' (quotedItem '"')∗ ↔ Spells .string w := by
  simp only [mem_between_iff]
  constructor
  · rintro ⟨body, hbody, rfl⟩
    exact .string ((quoteEnd_eq_length_iff (by decide)).mpr ⟨body, rfl, hbody⟩)
  · intro h
    cases h with
    | string hl =>
        obtain ⟨body, rfl, hbody⟩ := (quoteEnd_eq_length_iff (by decide)).mp hl
        exact ⟨body, hbody, rfl⟩
    | fixed he => cases punctuation_isFixed he

theorem mem_between_singleQuotes_iff :
    w ∈ between '\'' (oneOrMore (quotedItem '\'')) ↔ Spells .rune w := by
  simp only [mem_between_iff, mem_oneOrMore_iff (nil_not_mem_quotedItem _)]
  constructor
  · rintro ⟨body, ⟨hne, hbody⟩, rfl⟩
    have hlength : (body ++ ['\'']).length ≠ 1 := by simpa using hne
    exact .rune ((quoteEnd_eq_length_iff (by decide)).mpr ⟨body, rfl, hbody⟩) hlength
  · intro h
    cases h with
    | rune hl hne =>
        obtain ⟨body, rfl, hbody⟩ := (quoteEnd_eq_length_iff (by decide)).mp hl
        exact ⟨body, ⟨by simpa using hne, hbody⟩, rfl⟩
    | fixed he => cases punctuation_isFixed he

end

/-- Apart from numbers and block comments, the spellings of a kind are what its pattern matches. -/
theorem Kind.mem_pattern_iff {kind : Kind} (hn : kind ≠ .number) (hb : kind ≠ .blockComment)
    {w : List Char} : w ∈ kind.pattern ↔ Spells kind w := by
  have hfixed : ∀ k : Kind, k.isFixed = true → ((w, k) ∈ punctuation ↔ Spells k w) :=
    fun k hk => ⟨.fixed, fun h => h.mem_punctuation hk⟩
  cases kind with
  | newline => exact mem_lineBreaks_iff
  | lineComment => exact mem_lineComments_iff
  | blockComment => exact absurd rfl hb
  | identifier => exact mem_identifiers_iff
  | rawString => exact mem_between_rawQuotes_iff
  | string => exact mem_between_doubleQuotes_iff
  | rune => exact mem_between_singleQuotes_iff
  | number => exact absurd rfl hn
  | _ => exact hfixed _ rfl

/-! ## Block comments -/

theorem blockCommentLength_ne_none {cs : List Char} (h : ['*', '/'] <:+: cs) :
    blockCommentLength cs ≠ none := by
  induction cs with
  | nil => simp at h
  | cons c cs ih =>
      rw [blockCommentLength_cons]
      split
      · simp
      · rename_i hc
        rcases List.infix_cons_iff.mp h with hprefix | hinfix
        · obtain ⟨rfl, rest, rfl⟩ := List.cons_prefix_cons.mp hprefix
          exact absurd ⟨rfl, rfl⟩ hc
        · simpa using ih hinfix

/-- A block comment ends behind the first `*/`. -/
theorem exists_of_blockCommentLength {cs : List Char} {n : Nat}
    (h : blockCommentLength cs = some n) : ∃ body after, cs = body ++ '*' :: '/' :: after ∧
      ¬ ['*', '/'] <:+: body ∧ n = body.length + 2 := by
  have hlength : (cs.take n).length = n := by
    rw [List.length_take, Nat.min_eq_left (blockCommentLength_le h).2]
  have htake : blockCommentLength (cs.take n ++ cs.drop n) = some (cs.take n).length := by
    rw [List.take_append_drop, hlength, h]
  obtain ⟨body, hbody, hnone⟩ :=
    blockCommentLength_eq_length_iff.mp (blockCommentLength_append_iff.mp htake)
  refine ⟨body, cs.drop n, (List.take_append_drop n cs).symm.trans ?_, hnone, ?_⟩
  · rw [hbody, List.append_assoc]
    rfl
  · rw [← hlength, hbody]
    simp

theorem munch_opening (cs : List Char) : munch '/' ('*' :: cs) =
    match blockCommentLength cs with
    | some n => (.token .blockComment, n + 1)
    | none => (.fault .unterminatedComment, cs.length + 1) := by
  cases h : blockCommentLength cs <;> simp [munch, isBlank, h]

/-! ## What is found -/

/-- A run takes in all of its kind. -/
theorem le_runLength_append {p : Char → Bool} {cs : List Char} (h : ∀ c ∈ cs, p c = true)
    (rest : List Char) : cs.length ≤ runLength p (cs ++ rest) := by
  rw [runLength, List.takeWhile_append_of_pos h, List.length_append]
  exact Nat.le_add_right _ _

section
variable {c : Char} {cs w : List Char} {kind : Kind}

/-- Where a fixed spelling fits and no comment begins, the longest that fits is found. -/
theorem munch_of_fixed (he : (w, kind) ∈ punctuation) (hp : w <+: c :: cs)
    (hslash : c = '/' → cs.head? ≠ some '/' ∧ cs.head? ≠ some '*') :
    ∃ kind' n, munch c cs = (.token kind', n) ∧ w.length ≤ n + 1 ∧
      (w.length = n + 1 → kind = kind') := by
  cases hg : punctuation? (c :: cs) with
  | none =>
      have hfits := List.isPrefixOf_iff_prefix.mpr hp
      exact absurd hfits (List.find?_eq_none.mp hg (w, kind) he)
  | some g =>
      obtain ⟨spelling, kind'⟩ := g
      obtain ⟨hmem, _, hmax⟩ := punctuation?_eq_some_iff.mp hg
      obtain ⟨d, ds, hd, _⟩ := punctuation_head hmem
      have hlength : spelling.length - 1 + 1 = spelling.length := by
        rw [show spelling = d :: ds from hd]
        rfl
      refine ⟨kind', _, (Reads.fixed hslash hg).munch_eq, ?_⟩
      rw [hlength]
      refine ⟨hmax _ he hp, fun hsame => ?_⟩
      have hfits : punctuation? (c :: cs) = some (w, kind) :=
        punctuation?_eq_some_iff.mpr ⟨he, hp, fun f hf hfp => hsame ▸ hmax f hf hfp⟩
      exact (Prod.mk.inj (Option.some.inj (hfits.symm.trans hg))).2

/-- **What is spelled at a place is found there, or more.**  Of numbers and block comments this is
not said. -/
theorem Spells.munch_of_longest (h : Spells kind w) (hp : w <+: c :: cs) (hn : kind ≠ .number)
    (hb : kind ≠ .blockComment) (hopen : ¬ ['/', '*'] <+: c :: cs) :
    ∃ kind' n, munch c cs = (.token kind', n) ∧ w.length ≤ n + 1 ∧
      (w.length = n + 1 → kind = kind') := by
  cases h with
  | lineFeed =>
      obtain ⟨rfl, _⟩ := List.cons_prefix_cons.mp hp
      exact ⟨_, _, (Reads.lineFeed rfl).munch_eq, Nat.le_refl 1, fun _ => rfl⟩
  | carriageReturn =>
      obtain ⟨rfl, _⟩ := List.cons_prefix_cons.mp hp
      exact ⟨_, _, (Reads.carriageReturn rfl).munch_eq, Nat.le_add_left 1 _, fun _ => rfl⟩
  | returnAndFeed =>
      obtain ⟨rfl, hcs⟩ := List.cons_prefix_cons.mp hp
      obtain ⟨after, rfl⟩ := hcs
      exact ⟨_, _, (Reads.carriageReturn rfl).munch_eq, Nat.le_refl 2, fun _ => rfl⟩
  | @lineComment body hbody =>
      obtain ⟨rfl, after, rfl⟩ := List.cons_prefix_cons.mp hp
      have hall : ∀ d ∈ '/' :: body, (!isLineEnd d) = true :=
        List.forall_mem_cons.mpr ⟨rfl, fun d hd => by rw [hbody d hd]; rfl⟩
      refine ⟨_, _, (Reads.lineComment rfl rfl).munch_eq, ?_, fun _ => rfl⟩
      exact Nat.succ_le_succ (le_runLength_append hall after)
  | blockComment => exact absurd rfl hb
  | identifier hc htail =>
      obtain ⟨rfl, after, rfl⟩ := List.cons_prefix_cons.mp hp
      refine ⟨_, _, (Reads.identifier hc).munch_eq, ?_, fun _ => rfl⟩
      exact Nat.succ_le_succ (le_runLength_append htail after)
  | number => exact absurd rfl hn
  | rawString hl =>
      obtain ⟨rfl, after, rfl⟩ := List.cons_prefix_cons.mp hp
      have hread := Reads.rawString rfl (rawLength_append hl after)
      exact ⟨_, _, hread.munch_eq, Nat.le_refl _, fun _ => rfl⟩
  | string hl =>
      obtain ⟨rfl, after, rfl⟩ := List.cons_prefix_cons.mp hp
      have hread := Reads.string rfl ((@quoteEnd_append_iff _ (by decide) _ after).mpr hl)
      exact ⟨_, _, hread.munch_eq, Nat.le_refl _, fun _ => rfl⟩
  | rune hl hne =>
      obtain ⟨rfl, after, rfl⟩ := List.cons_prefix_cons.mp hp
      have hread := Reads.rune rfl ((@quoteEnd_append_iff _ (by decide) _ after).mpr hl) hne
      exact ⟨_, _, hread.munch_eq, Nat.le_refl _, fun _ => rfl⟩
  | fixed he =>
      by_cases hline : c = '/' ∧ cs.head? = some '/'
      · -- of two slashes, no fixed spelling fits but the first
        obtain ⟨rfl, hhead⟩ := hline
        obtain ⟨after, rfl⟩ := List.head?_eq_some_iff.mp hhead
        have hslash : w = ['/'] := by
          obtain ⟨d, ds, hd, _⟩ := punctuation_head he
          obtain rfl : w = d :: ds := hd
          obtain ⟨rfl, hds⟩ := List.cons_prefix_cons.mp hp
          rcases slash_head he rfl with hentry | hentry
          · cases hentry
            exact absurd (List.cons_prefix_cons.mp hds).1 (by decide)
          · exact (Prod.mk.inj hentry).1
        refine ⟨_, _, (Reads.lineComment rfl rfl).munch_eq, ?_⟩
        rw [hslash, runLength_cons, if_pos (by decide), List.length_singleton]
        exact ⟨Nat.le_add_left 1 _, fun hsame => by omega⟩
      · refine munch_of_fixed he hp fun hc => ⟨fun hhead => hline ⟨hc, hhead⟩, fun hhead => ?_⟩
        obtain ⟨after, rfl⟩ := List.head?_eq_some_iff.mp hhead
        exact hopen (hc ▸ ⟨after, rfl⟩)

/-- **What is matched at a place is found there, or more.** -/
theorem Matches.munch_eq {is : LexemeClass} (h : Matches (c :: cs) is w)
    (hdigit : c.isDigit = false) (hopen : ¬ ['/', '*'] <+: c :: cs) :
    ∃ is' n, munch c cs = (is', n) ∧ (∀ why, is' ≠ .fault why) ∧ w.length ≤ n + 1 ∧
      (w.length = n + 1 → is = is') := by
  obtain ⟨hne, hfront, hmem⟩ := h
  cases is with
  | blank =>
      obtain ⟨_, hall⟩ := mem_oneOrMore_oneOf_iff.mp hmem
      obtain ⟨d, ds, rfl⟩ := List.exists_cons_of_ne_nil hne
      obtain ⟨rfl, after, rfl⟩ := List.cons_prefix_cons.mp hfront
      have hblank : ∀ e ∈ d :: ds, isBlank e = true := by
        intro e he
        have hone := hall e he
        simp only [List.mem_cons, List.not_mem_nil, or_false] at hone
        rw [isBlank_iff]
        tauto
      obtain ⟨hd, hds⟩ := List.forall_mem_cons.mp hblank
      refine ⟨_, _, by rw [munch, if_pos hd], by simp, ?_, fun _ => rfl⟩
      exact Nat.succ_le_succ (le_runLength_append hds after)
  | fault why => exact absurd hmem (Set.notMem_empty w)
  | token kind =>
      have hn : kind ≠ .number := by
        rintro rfl
        obtain ⟨front, hspells, exponent, _, rfl⟩ := mem_numeral_iff.mp hmem
        cases hspells with
        | number hd =>
            obtain ⟨rfl, _⟩ := List.cons_prefix_cons.mp hfront
            rw [hd] at hdigit
            cases hdigit
        | fixed he => cases punctuation_isFixed he
      have hb : kind ≠ .blockComment := by
        rintro rfl
        obtain rfl : w = ['/', '*'] := hmem
        exact hopen hfront
      obtain ⟨kind', n, hm, hle, honly⟩ :=
        ((Kind.mem_pattern_iff hn hb).mp hmem).munch_of_longest hfront hn hb hopen
      exact ⟨_, n, hm, by simp, hle, fun hsame => congrArg _ (honly hsame)⟩

/-- Only a block comment can be unterminated. -/
theorem invalidToken_of_munch {why : ScanFault} {n : Nat} (h : munch c cs = (.fault why, n))
    (hopen : ¬ ['/', '*'] <+: c :: cs) : why = .invalidToken := by
  cases Reads.of_munch h with
  | openComment hslash hstar =>
      obtain ⟨behind, rfl⟩ := List.head?_eq_some_iff.mp hstar
      exact absurd ⟨behind, by rw [hslash]; rfl⟩ hopen
  | _ => rfl

/-- What is found, if it is no fault, is matched. -/
theorem StandsBefore.matches {x : Lexeme} {rest : List Char} (h : StandsBefore x rest)
    (hread : x.Readable) (hdigit : ¬ x.text.head?.any Char.isDigit)
    (hopen : ¬ ['/', '*'] <+: x.text ++ rest) : Matches (x.text ++ rest) x.is x.text := by
  obtain ⟨is, text⟩ := x
  have hne : text ≠ [] := by
    obtain ⟨c, tail, rfl, _⟩ := h
    exact List.cons_ne_nil c tail
  refine ⟨hne, List.prefix_append text rest, ?_⟩
  cases is with
  | blank =>
      obtain ⟨c, tail, rfl, hm⟩ := h
      have hc := isBlank_of_munch hm
      rw [munch, if_pos hc] at hm
      obtain ⟨htail, _⟩ := runLength_append_eq_length_iff.mp (Prod.mk.inj hm).2
      refine mem_oneOrMore_oneOf_iff.mpr ⟨hne, fun d hd => ?_⟩
      have hblank : ∀ e ∈ c :: tail, isBlank e = true := List.forall_mem_cons.mpr ⟨hc, htail⟩
      have hd := isBlank_iff.mp (hblank d hd)
      simp only [List.mem_cons, List.not_mem_nil, or_false]
      tauto
  | fault why => exact absurd rfl (hread why)
  | token kind =>
      have hspells := h.spells
      refine (Kind.mem_pattern_iff ?_ ?_).mpr hspells
      · rintro rfl
        cases hspells with
        | number hc => exact hdigit hc
        | fixed he => cases punctuation_isFixed he
      · rintro rfl
        cases hspells with
        | blockComment => exact hopen ⟨_, rfl⟩
        | fixed he => cases punctuation_isFixed he

end

/-! ## The scan of a text -/

/-- What is found where a block comment opens. -/
theorem StandsBefore.opening {x : Lexeme} {behind rest : List Char} (h : StandsBefore x rest)
    (hopen : x.text ++ rest = '/' :: '*' :: behind) :
    (∃ body after, behind = body ++ '*' :: '/' :: after ∧ ¬ ['*', '/'] <:+: body ∧
        x = ⟨.token .blockComment, '/' :: '*' :: (body ++ ['*', '/'])⟩) ∨
      ¬ ['*', '/'] <:+: behind ∧
        x = ⟨.fault .unterminatedComment, '/' :: '*' :: behind⟩ := by
  cases hlength : blockCommentLength behind with
  | none =>
      have hstand : StandsBefore ⟨.fault .unterminatedComment, '/' :: '*' :: behind⟩ [] :=
        ⟨'/', '*' :: behind, rfl, by rw [List.append_nil, munch_opening, hlength]; rfl⟩
      refine .inr ⟨fun hinfix => blockCommentLength_ne_none hinfix hlength, ?_⟩
      exact h.eq_of_append hstand (by rw [hopen, List.append_nil])
  | some n =>
      obtain ⟨body, after, rfl, hnone, rfl⟩ := exists_of_blockCommentLength hlength
      have htext : '*' :: (body ++ ['*', '/']) ++ after =
          '*' :: (body ++ '*' :: '/' :: after) := by simp
      have hstand : StandsBefore ⟨.token .blockComment, '/' :: '*' :: (body ++ ['*', '/'])⟩ after :=
        ⟨'/', '*' :: (body ++ ['*', '/']), rfl, by rw [htext, munch_opening, hlength]; simp⟩
      exact .inl ⟨body, after, rfl, hnone, h.eq_of_append hstand (by rw [hopen, ← htext]; rfl)⟩

/-- What is found where no block comment opens and that does not begin with a digit is the longest
match, if there is a match, and an invalid token if there is none. -/
theorem StandsBefore.isLongestMatch {x : Lexeme} {rest : List Char} (h : StandsBefore x rest)
    (hdigit : ¬ x.text.head?.any Char.isDigit) (hopen : ¬ ['/', '*'] <+: x.text ++ rest) :
    ((∃ is w, Matches (x.text ++ rest) is w) → IsLongestMatch (x.text ++ rest) x) ∧
      ((∀ is w, ¬ Matches (x.text ++ rest) is w) → x.is = .fault .invalidToken) := by
  obtain ⟨is, text⟩ := x
  obtain ⟨c, tail, htext, hm⟩ := h
  obtain rfl : text = c :: tail := htext
  have hstand : StandsBefore ⟨is, c :: tail⟩ rest := ⟨c, tail, rfl, hm⟩
  have hc : c.isDigit = false := Bool.not_eq_true _ ▸ hdigit
  have hfound : ∀ is' w, Matches (c :: tail ++ rest) is' w → (∀ why, is ≠ .fault why) ∧
      w.length ≤ tail.length + 1 ∧ (w.length = tail.length + 1 → is' = is) := by
    intro is' w hw
    obtain ⟨found, n, hn, hread, hle, honly⟩ := hw.munch_eq hc hopen
    obtain ⟨rfl, rfl⟩ := Prod.mk.inj (hn.symm.trans hm)
    exact ⟨hread, hle, honly⟩
  refine ⟨?_, fun hnone => ?_⟩
  · rintro ⟨is', w, hw⟩
    refine ⟨hstand.matches (hfound is' w hw).1 hdigit hopen, ?_, ?_⟩
    · exact fun is' w hw => (hfound is' w hw).2.1
    · exact fun is' hw => (hfound is' _ hw).2.2 rfl
  · by_cases hread : ∀ why, is ≠ .fault why
    · exact absurd (hstand.matches hread hdigit hopen) (hnone is (c :: tail))
    · obtain ⟨why, rfl⟩ := not_forall_not.mp hread
      rw [invalidToken_of_munch hm hopen]

/-- A lexeme in its place is one of the lexemes, behind the text of those in front of it. -/
theorem exists_append_of_mem_locate {position : Nat} {zs : List Lexeme} {x : Located Lexeme}
    (h : x ∈ Lexeme.locate position zs) : ∃ xs ys, zs = xs ++ x.value :: ys ∧
      x.span = ⟨position + byteWidth (Lexeme.spell xs),
        position + byteWidth (Lexeme.spell xs ++ x.value.text)⟩ := by
  induction zs generalizing position with
  | nil => cases h
  | cons z zs ih =>
      rcases List.mem_cons.mp h with rfl | h
      · exact ⟨[], zs, rfl, rfl⟩
      · obtain ⟨xs, ys, rfl, hspan⟩ := ih h
        refine ⟨z :: xs, ys, rfl, ?_⟩
        rw [hspan, spell_cons]
        simp only [byteWidth_append, Nat.add_assoc]

/-- **The scanner finds the longest match, and fails only where there is none.**  Wherever a lexeme
of a text begins with anything but a digit, let `rest` be the text from there on.  If a pattern
matches a text at the head of `rest`, and `rest` does not begin with `/*`, then the lexeme is the
longest text that is matched there, and it is of the class of the only pattern that matches it.  If
`rest` begins with `/*`, the lexeme is a block comment that ends at the first `*/` behind that, or,
if there is none, a fault that goes on to the end of the text.  If no pattern matches, the lexeme is
an invalid token. -/
theorem scan_longest_match {source : String} {before rest : List Char} {x : Located Lexeme}
    (hx : x ∈ Lexeme.locate 0 (lexemes source.toList)) (hsource : source.toList = before ++ rest)
    (hstart : x.span.start = byteWidth before) (hdigit : ¬ rest.head?.any Char.isDigit) :
    x.value.text <+: rest ∧ x.span.stop = byteWidth (before ++ x.value.text) ∧
      ((∃ is w, Matches rest is w) → ¬ ['/', '*'] <+: rest → IsLongestMatch rest x.value) ∧
      (∀ behind, rest = '/' :: '*' :: behind →
        (∃ body after, behind = body ++ '*' :: '/' :: after ∧ ¬ ['*', '/'] <:+: body ∧
            x.value = ⟨.token .blockComment, '/' :: '*' :: (body ++ ['*', '/'])⟩) ∨
          ¬ ['*', '/'] <:+: behind ∧ x.value = ⟨.fault .unterminatedComment, rest⟩) ∧
      ((∀ is w, ¬ Matches rest is w) → x.value.is = .fault .invalidToken) := by
  obtain ⟨xs, ys, hxs, hspan⟩ := exists_append_of_mem_locate hx
  have hspell : source.toList = Lexeme.spell xs ++ (x.value.text ++ Lexeme.spell ys) := by
    rw [← spell_lexemes source.toList, hxs, spell_append, spell_cons]
  obtain ⟨rfl, rfl⟩ : before = Lexeme.spell xs ∧ rest = x.value.text ++ Lexeme.spell ys := by
    refine append_inj_of_byteWidth (hsource.symm.trans hspell) ?_
    rw [← hstart, hspan, Nat.zero_add]
  have hback := readsBack_lexemes source.toList
  rw [hxs] at hback
  have hstand : StandsBefore x.value (Lexeme.spell ys) :=
    (readsBack_cons_iff.mp hback.of_append).1
  have hdigit' : ¬ x.value.text.head?.any Char.isDigit := by
    obtain ⟨c, tail, htext, _⟩ := hstand
    rwa [htext] at hdigit ⊢
  refine ⟨List.prefix_append _ _, by rw [hspan]; exact Nat.zero_add _, fun hmatch hopen => ?_,
    ?_, ?_⟩
  · exact (hstand.isLongestMatch hdigit' hopen).1 hmatch
  · intro behind hbehind
    rw [hbehind]
    exact hstand.opening hbehind
  · intro hnone
    by_cases hopen : ['/', '*'] <+: x.value.text ++ Lexeme.spell ys
    · -- the slash alone is an operator
      have hslash : ['/'] <+: x.value.text ++ Lexeme.spell ys :=
        (List.prefix_append ['/'] ['*']).trans hopen
      exact absurd ⟨by simp, hslash, show (['/'], Kind.operator) ∈ punctuation by decide⟩
        (hnone (.token .operator) ['/'])
    · exact (hstand.isLongestMatch hdigit' hopen).2 hnone

/-- At `&^=`, where `&` and `&^` match as well. -/
theorem scan_longest_match_andNot :
    let x : Located Lexeme := ⟨⟨1, 4⟩, ⟨.token .operator, "&^=".toList⟩⟩
    (x ∈ Lexeme.locate 0 (lexemes "x&^=y".toList) ∧
        "x&^=y".toList = "x".toList ++ "&^=y".toList ∧ x.span.start = byteWidth "x".toList ∧
        ¬ "&^=y".toList.head?.any Char.isDigit) ∧
      x.span.stop = byteWidth ("x".toList ++ x.value.text) ∧
      IsLongestMatch "&^=y".toList x.value := by
  intro x
  have hx : x ∈ Lexeme.locate 0 (lexemes "x&^=y".toList) := by decide
  have hsource : "x&^=y".toList = "x".toList ++ "&^=y".toList := by decide
  have hstart : x.span.start = byteWidth "x".toList := by decide
  have hdigit : ¬ "&^=y".toList.head?.any Char.isDigit := by decide
  have hampersand : Matches "&^=y".toList (.token .ampersand) ['&'] :=
    ⟨by decide, by decide, show (['&'], Kind.ampersand) ∈ punctuation by decide⟩
  obtain ⟨_, hstop, hlongest, _⟩ := scan_longest_match hx hsource hstart hdigit
  exact ⟨⟨hx, hsource, hstart, hdigit⟩, hstop, hlongest ⟨_, _, hampersand⟩ (by decide)⟩

end MethodSkeleton
