/-
# `MethodSkeleton.Proofs.Source.LineBreak` — scanning does not reach over the end of a line

No fixed spelling holds a line feed, so at the end of a line nothing fuses with what stands on the
next one.  More than that: every length that the scanner measures stops at a line feed as it stops
at the end of the text, so that what is found in front of a line feed is what is found without it
(`munch_append_lineFeed`).  Only an open comment or an open raw string goes on (`RunsOn`), and a
carriage return takes the line feed in.

Hence a line feed that is put between two texts is a line break of its own and the two are cut into
lexemes as before (`ReadsBack.lexemes_append_lineFeed`), provided that every stretch of the first
text can be read and that it does not end in a line break itself.
-/
import MethodSkeleton.Proofs.Source.Lookahead

namespace MethodSkeleton

/-! ## At the end of a line -/

/-- The end of a line, or of the text. -/
def EndsLine (cs : List Char) : Prop := cs.head?.all (· == '\n') = true

theorem prefix_of_endsLine {e cs after : List Char} (he : '\n' ∉ e) (h : EndsLine after)
    (hp : e <+: cs ++ after) : e <+: cs := by
  rcases Nat.le_total e.length cs.length with hle | hle
  · exact List.prefix_of_prefix_length_le hp (List.prefix_append cs after) hle
  · obtain ⟨t, rfl⟩ := List.prefix_of_prefix_length_le (List.prefix_append cs after) hp hle
    have ht : t <+: after := List.prefix_append_right_inj cs |>.mp hp
    cases t with
    | nil => simp
    | cons c t =>
        obtain ⟨s, rfl⟩ := ht
        have hc : c = '\n' := by simpa [EndsLine] using h
        rw [hc] at he
        simp at he

/-- No spelling reaches over the end of a line. -/
theorem fuses_append_iff {text row after : List Char} (h : EndsLine after) :
    Fuses text (row ++ after) ↔ Fuses text row := by
  have hnone : ∀ e ∈ punctuation, '\n' ∉ e.1 := by decide
  have hdot : (row ++ after).head? = some '.' ↔ row.head? = some '.' := by
    cases row with
    | nil =>
        cases after with
        | nil => rfl
        | cons c after =>
            have hc : c = '\n' := by simpa [EndsLine] using h
            simp [hc]
    | cons c row => simp
  rw [Fuses, Fuses, hdot, ← List.append_assoc]
  constructor
  · rintro (⟨e, he, hlt, hp⟩ | hd)
    · exact .inl ⟨e, he, hlt, prefix_of_endsLine (hnone e he) h hp⟩
    · exact .inr hd
  · rintro (⟨e, he, hlt, hp⟩ | hd)
    · exact .inl ⟨e, he, hlt, hp.trans (List.prefix_append _ _)⟩
    · exact .inr hd

/-! ## What is measured up to a line feed -/

theorem runLength_append_lineFeed {p : Char → Bool} (hp : p '\n' = false) (cs rest : List Char) :
    runLength p (cs ++ '\n' :: rest) = runLength p cs := by
  induction cs with
  | nil =>
      rw [List.nil_append, runLength_cons, hp]
      rfl
  | cons c cs ih => rw [List.cons_append, runLength_cons, runLength_cons, ih]

theorem numberLength_append_lineFeed (cs rest : List Char) :
    numberLength (cs ++ '\n' :: rest) = numberLength cs := by
  induction cs with
  | nil => exact numberLength_cons '\n' rest
  | cons c cs ih =>
      rw [List.cons_append, numberLength_cons, numberLength_cons, ih,
        runLength_append_lineFeed rfl]

/-- A quotation ends in front of a line feed as it ends at the end of the text, a backslash at its
end included. -/
theorem quoteEnd_append_lineFeed {q : Char} (hq : q ≠ '\\') (hn : q ≠ '\n')
    (cs rest : List Char) : quoteEnd q (cs ++ '\n' :: rest) = quoteEnd q cs := by
  have hbreak : quoteEnd q ('\n' :: rest) = .broken 0 := by
    rw [quoteEnd_cons (by decide), if_neg hn.symm]
    rfl
  fun_induction quoteEnd q cs with
  | case1 => exact hbreak
  | case2 cs => simp [quoteEnd]
  | case3 c cs hc ih => simp only [List.cons_append, quoteEnd, if_neg hc, ih]
  | case4 cs => rw [List.cons_append, quoteEnd_cons hq, if_pos rfl]
  | case5 c cs h hc hb =>
      by_cases hne : c = '\\'
      · subst hne
        have hcs : cs = [] := by
          cases cs with
          | nil => rfl
          | cons d ds => exact absurd rfl (h d ds rfl)
        subst hcs
        simp [quoteEnd]
      · have hl : isLineEnd c = true := by simpa [hne] using hb
        rw [List.cons_append, quoteEnd_cons hne, if_neg hc, if_pos hl]
  | case6 c cs _ hc hb ih =>
      simp only [not_or, Bool.or_eq_true, decide_eq_true_eq] at hb
      rw [List.cons_append, quoteEnd_cons hb.2, if_neg hc, if_neg hb.1, ih]

theorem punctuation?_append_lineFeed (cs rest : List Char) :
    punctuation? (cs ++ '\n' :: rest) = punctuation? cs := by
  have hnone : ∀ e ∈ punctuation, '\n' ∉ e.1 := by decide
  have hfits : ∀ e ∈ punctuation, e.1 <+: cs ++ '\n' :: rest ↔ e.1 <+: cs := fun e he =>
    ⟨prefix_of_endsLine (hnone e he) rfl, fun hp => hp.trans (List.prefix_append _ _)⟩
  refine Option.ext fun e => ?_
  rw [punctuation?_eq_some_iff, punctuation?_eq_some_iff]
  refine and_congr_right fun he => and_congr (hfits e he) (forall₂_congr fun f hf => ?_)
  rw [hfits f hf]

/-! ## In front of a line feed -/

/-- A comment or a raw string that begins at `c` and is not closed in what follows. -/
def RunsOn (c : Char) (cs : List Char) : Prop :=
  c = '/' ∧ cs.head? = some '*' ∧ blockCommentLength cs.tail = none ∨
    c = '\x60' ∧ rawLength '\x60' cs = none

/-- **What is found does not depend on the next line**, unless it is open at the end of its own, or
a carriage return at the very end. -/
theorem munch_append_lineFeed {c : Char} {cs : List Char} (hreturn : c = '\r' → cs ≠ [])
    (hopen : ¬ RunsOn c cs) (rest : List Char) : munch c (cs ++ '\n' :: rest) = munch c cs := by
  have hfeed : c = '\r' → (cs ++ '\n' :: rest).head? = cs.head? := by
    intro hc
    obtain ⟨d, tail, rfl⟩ := List.exists_cons_of_ne_nil (hreturn hc)
    rfl
  have hcomment : c = '/' ∧ cs.head? = some '*' → ∃ n, blockCommentLength cs.tail = some n ∧
      blockCommentLength (cs ++ '\n' :: rest).tail = some n := by
    rintro ⟨hc, hs⟩
    obtain ⟨n, hn⟩ := Option.ne_none_iff_exists'.mp fun h => hopen (.inl ⟨hc, hs, h⟩)
    obtain ⟨tail, rfl⟩ := List.head?_eq_some_iff.mp hs
    exact ⟨n, hn, blockCommentLength_append hn _⟩
  have hraw : c = '\x60' → ∃ n, rawLength '\x60' cs = some n ∧
      rawLength '\x60' (cs ++ '\n' :: rest) = some n := by
    intro hc
    obtain ⟨n, hn⟩ := Option.ne_none_iff_exists'.mp fun h => hopen (.inr ⟨hc, h⟩)
    exact ⟨n, hn, rawLength_append hn _⟩
  have hhead : ∀ {d : Char}, d ≠ '\n' →
      ((cs ++ '\n' :: rest).head? = some d) = (cs.head? = some d) := by
    intro d hd
    cases cs with
    | nil => simp [hd.symm]
    | cons c cs => rfl
  rw [munch, munch, ← List.cons_append, runLength_append_lineFeed rfl,
    runLength_append_lineFeed rfl, runLength_append_lineFeed rfl, numberLength_append_lineFeed,
    quoteEnd_append_lineFeed (by decide) (by decide),
    quoteEnd_append_lineFeed (by decide) (by decide), punctuation?_append_lineFeed]
  refine ite_congr rfl (fun _ => rfl) fun _ => ?_
  refine ite_congr rfl (fun _ => rfl) fun _ => ?_
  refine ite_congr rfl (fun hc => by rw [hfeed hc]) fun _ => ?_
  refine ite_congr (congrArg (c = '/' ∧ ·) (hhead (by decide))) (fun _ => rfl) fun _ => ?_
  refine ite_congr (congrArg (c = '/' ∧ ·) (hhead (by decide))) (fun hc => ?_) fun _ => ?_
  · obtain ⟨n, hn, hn'⟩ := hcomment hc
    rw [hn, hn']
  refine ite_congr rfl (fun _ => rfl) fun _ => ?_
  refine ite_congr rfl (fun _ => rfl) fun _ => ?_
  refine ite_congr rfl (fun hc => ?_) fun _ => rfl
  obtain ⟨n, hn, hn'⟩ := hraw hc
  rw [hn, hn']

/-- A comment or a raw string that is not closed. -/
def Lexeme.Unterminated (x : Lexeme) : Prop :=
  x.is = .fault .unterminatedComment ∨
    x.is = .fault .invalidToken ∧ x.text.head? = some '\x60'

theorem Lexeme.Readable.not_unterminated {x : Lexeme} (h : x.Readable) : ¬ x.Unterminated := by
  rintro (hx | ⟨hx, _⟩)
  · exact h _ hx
  · exact h _ hx

theorem unterminated_munch_iff {c : Char} {cs tail : List Char} :
    Lexeme.Unterminated ⟨(munch c cs).1, c :: tail⟩ ↔ RunsOn c cs := by
  constructor
  · rintro (h | ⟨h, hc⟩)
    · have hreads := reads_munch c cs
      generalize (munch c cs).2 = n at hreads
      rw [show (munch c cs).1 = _ from h] at hreads
      cases hreads with
      | openComment hc hs hnone => exact .inl ⟨hc, hs, hnone⟩
    · obtain rfl : c = '\x60' := Option.some.inj hc
      refine .inr ⟨rfl, ?_⟩
      by_contra hne
      obtain ⟨n, hn⟩ := Option.ne_none_iff_exists'.mp hne
      have hm := (Reads.rawString rfl hn).munch_eq
      rw [hm] at h
      cases h
  · rintro (⟨rfl, hs, hnone⟩ | ⟨rfl, hnone⟩)
    · exact .inl (by simp [munch, hs, hnone, isBlank])
    · have hi : isIdentifierStart '\x60' = false := rfl
      have hd : Char.isDigit '\x60' = false := rfl
      exact .inr ⟨by simp [munch, hnone, hi, hd, isBlank], rfl⟩

theorem RunsOn.munch_length {c : Char} {cs : List Char} (h : RunsOn c cs) :
    (munch c cs).2 = cs.length := by
  rcases h with ⟨rfl, hs, hnone⟩ | ⟨rfl, hnone⟩
  · simp [munch, hs, hnone, isBlank]
  · have hi : isIdentifierStart '\x60' = false := rfl
    have hd : Char.isDigit '\x60' = false := rfl
    simp [munch, hnone, hi, hd, isBlank]

/-- What is not closed takes in all that follows. -/
theorem StandsBefore.eq_nil_of_unterminated {x : Lexeme} {after : List Char}
    (h : StandsBefore x after) (hx : x.Unterminated) : after = [] := by
  obtain ⟨is, text⟩ := x
  obtain ⟨c, tail, ht, hm⟩ := h
  obtain rfl : text = c :: tail := ht
  obtain rfl : (munch c (tail ++ after)).1 = is := congrArg Prod.fst hm
  have hlength := (unterminated_munch_iff.mp hx).munch_length
  rw [hm, List.length_append] at hlength
  exact List.eq_nil_of_length_eq_zero (Nat.add_eq_left.mp hlength.symm)

theorem StandsBefore.append_lineFeed {x : Lexeme} {after : List Char} (h : StandsBefore x after)
    (hx : ¬ x.Unterminated) (hk : after ≠ [] ∨ x.text ≠ ['\r']) (rest : List Char) :
    StandsBefore x (after ++ '\n' :: rest) := by
  obtain ⟨is, text⟩ := x
  obtain ⟨c, tail, ht, hm⟩ := h
  obtain rfl : text = c :: tail := ht
  obtain rfl : (munch c (tail ++ after)).1 = is := congrArg Prod.fst hm
  refine ⟨c, tail, rfl, ?_⟩
  have hreturn : c = '\r' → tail ++ after ≠ [] := by
    rintro rfl hnil
    obtain ⟨rfl, rfl⟩ := List.append_eq_nil_iff.mp hnil
    simp at hk
  rw [← List.append_assoc, munch_append_lineFeed hreturn (unterminated_munch_iff.not.mp hx), hm]

/-- Only a line break is a lone carriage return. -/
theorem StandsBefore.text_ne_return {x : Lexeme} {after : List Char} (h : StandsBefore x after)
    (hx : x.is ≠ .token .newline) : x.text ≠ ['\r'] := by
  obtain ⟨c, tail, ht, hm⟩ := h
  rw [ht]
  rintro hreturn
  obtain ⟨rfl, rfl⟩ := List.cons.inj hreturn
  exact hx (congrArg Prod.fst hm).symm

/-- **Scanning splits at a line break.**  A line feed between two texts is a lexeme of its own, and
the two are cut into lexemes as they are by themselves. -/
theorem ReadsBack.lexemes_append_lineFeed {xs : List Lexeme} (h : ReadsBack xs)
    (hread : ∀ x ∈ xs, x.Readable) (hlast : ∀ x, xs.getLast? = some x → x.is ≠ .token .newline)
    (rest : List Char) : lexemes (Lexeme.spell xs ++ '\n' :: rest) =
      xs ++ ⟨.token .newline, ['\n']⟩ :: lexemes rest := by
  induction xs with
  | nil => exact (standsBefore_lineFeed rest).lexemes_eq
  | cons x xs ih =>
      obtain ⟨hstand, hxs⟩ := readsBack_cons_iff.mp h
      obtain ⟨hx, hread⟩ := List.forall_mem_cons.mp hread
      have hk : Lexeme.spell xs ≠ [] ∨ x.text ≠ ['\r'] := by
        cases xs with
        | nil => exact .inr (hstand.text_ne_return (hlast x rfl))
        | cons y ys =>
            have hy := hxs.text_ne_nil y List.mem_cons_self
            rw [spell_cons]
            exact .inl (List.append_ne_nil_of_left_ne_nil hy _)
      have hrest : ∀ y, xs.getLast? = some y → y.is ≠ .token .newline := by
        intro y hy
        refine hlast y ?_
        rw [List.getLast?_cons, hy]
        rfl
      have hlineFeed := hstand.append_lineFeed hx.not_unterminated hk rest
      rw [spell_cons, List.append_assoc, hlineFeed.lexemes_eq, ih hxs hread hrest]
      rfl

end MethodSkeleton
