/-
# `MethodSkeleton.Proofs.Layout.Depth` — how deep a line stands

A line is written behind as many tabs as there are earlier lines that deepen it: lines that leave
open a delimiter of their own, the innermost of which is still open behind the closing delimiters
that the line begins with; the labels of a `switch` stand one tab further out
(`reformatBytes_depth`).  Neither side of this knows a stack or a counter: what is open is what a
text leaves open by its shape, and a delimiter is told from others by its place.

The number of tabs is what the counting loop has found behind the leading closers.  The invariant
(`Tracks`) is that its stack is what is open, and that of the delimiters of earlier lines just those
are marked that deepen what is inside of them.  Every earlier line has marked at most one, so the
marks are as many as the lines.
-/
import MethodSkeleton.Proofs.Layout.Counting
import MethodSkeleton.Proofs.Layout.FixedPoint
import MethodSkeleton.Proofs.Layout.Verbatim

namespace MethodSkeleton

/-! ## The rule -/

/-- The tokens of lines. -/
def lineTokens (lines : List SourceLine) : List (Located RawToken) := lines.flatMap (·.tokens)

/-- The line `k` opens the delimiter and leaves it open, and no other inside of it. -/
def LeftBy (lines : List SourceLine) (k : Nat) (o : Located Bracket) : Prop :=
  ∃ l opened, lines[k]? = some l ∧
    LeavesOpen (significant (lineTokens (lines.take (k + 1)))) opened ∧
    opened.find? (fun o => o.span ∈ l.tokens.map (·.span)) = some o

/-- The delimiter is open behind the lines above the line `no` and the tokens `front` of it. -/
def OpenBehind (lines : List SourceLine) (no : Nat) (front : List (Located RawToken))
    (o : Located Bracket) : Prop :=
  ∃ opened, LeavesOpen (significant (lineTokens (lines.take no) ++ front)) opened ∧ o ∈ opened

/-- The line `k` deepens what comes behind the tokens `front` of the line `no`. -/
def Deepens (lines : List SourceLine) (no : Nat) (front : List (Located RawToken)) (k : Nat) :
    Prop :=
  ∃ o, LeftBy lines k o ∧ OpenBehind lines no front o

/-- Decides `LeftBy`. -/
def leftBy? (lines : List SourceLine) (k : Nat) : Option (Located Bracket) :=
  lines[k]?.bind fun l =>
    (openAfter? [] (significant (lineTokens (lines.take (k + 1))))).bind
      (·.find? fun o => o.span ∈ l.tokens.map (·.span))

/-- Decides `OpenBehind`. -/
def openBehindB (lines : List SourceLine) (no : Nat) (front : List (Located RawToken))
    (o : Located Bracket) : Bool :=
  (openAfter? [] (significant (lineTokens (lines.take no) ++ front))).any (o ∈ ·)

theorem leftBy?_eq_some_iff {lines : List SourceLine} {k : Nat} {o : Located Bracket} :
    leftBy? lines k = some o ↔ LeftBy lines k o := by
  simp only [leftBy?, LeftBy, Option.bind_eq_some_iff, openAfter?_eq_some_iff, exists_and_left]

theorem openBehindB_iff {lines : List SourceLine} {no : Nat} {front : List (Located RawToken)}
    {o : Located Bracket} : openBehindB lines no front o = true ↔ OpenBehind lines no front o := by
  simp only [openBehindB, OpenBehind, Option.any_eq_true, openAfter?_eq_some_iff,
    decide_eq_true_eq]

instance (lines : List SourceLine) (no : Nat) (front : List (Located RawToken)) (k : Nat) :
    Decidable (Deepens lines no front k) :=
  decidable_of_iff ((leftBy? lines k).any (openBehindB lines no front) = true) <| by
    simp only [Deepens, Option.any_eq_true, leftBy?_eq_some_iff, openBehindB_iff]

/-- How many earlier lines deepen what comes behind the tokens `front` of the line `no`. -/
def deepening (lines : List SourceLine) (no : Nat) (front : List (Located RawToken)) : Nat :=
  (List.range no).countP (Deepens lines no front ·)

/-- Whether a line begins with a label. -/
def SourceLine.isLabel (l : SourceLine) : Bool :=
  l.tokens.head?.any fun t => t.value.kind == .identifier &&
    (t.value.text == "case".toList || t.value.text == "default".toList)

/-- How deep a line stands. -/
def depthOf (lines : List SourceLine) (no : Nat) (l : SourceLine) : Nat :=
  deepening lines no (closersOf l.tokens) - if l.isLabel then 1 else 0

theorem openBehind_iff {lines : List SourceLine} {no : Nat} {front : List (Located RawToken)}
    {opened : List (Located Bracket)}
    (h : LeavesOpen (significant (lineTokens (lines.take no) ++ front)) opened)
    (o : Located Bracket) : OpenBehind lines no front o ↔ o ∈ opened := by
  refine ⟨?_, fun ho => ⟨opened, h, ho⟩⟩
  rintro ⟨opened', h', ho⟩
  rwa [h.unique h']

/-! ## Lines that nest -/

/-- Lines whose delimiters nest, and in which no two tokens stand at the same place. -/
structure NestedLines (lines : List SourceLine) : Prop where
  closes : openAfter? [] (significant (lineTokens lines)) = some []
  apart : ((lineTokens lines).map (·.span)).Nodup

theorem lineTokens_eq_append (lines : List SourceLine) (no : Nat) :
    lineTokens lines = lineTokens (lines.take no) ++ lineTokens (lines.drop no) := by
  rw [lineTokens, lineTokens, lineTokens, ← List.flatMap_append, List.take_append_drop]

theorem lineTokens_take_succ {lines : List SourceLine} {no : Nat} {l : SourceLine}
    (h : lines[no]? = some l) :
    lineTokens (lines.take (no + 1)) = lineTokens (lines.take no) ++ l.tokens := by
  rw [lineTokens, List.take_add_one, h, List.flatMap_append]
  simp [lineTokens]

theorem nestedLines_of_reformat {source out : String} {ts : List (Located RawToken)}
    (h : reformat source = .ok out) (hts : rawTokens source = .ok ts) :
    NestedLines (sourceLines ts) where
  closes := by
    rw [lineTokens, sourceLines_flatMap_tokens, significant_filter_newline]
    exact openAfter?_of_reformat h hts
  apart := by
    have hne := (readsBack_lexemes source.toList).text_ne_nil
    rw [lineTokens, sourceLines_flatMap_tokens]
    have hspans := (nodup_span_locate hne).sublist (span_sublist_of_rawTokensOf hts)
    exact hspans.sublist (List.filter_sublist.map _)

section
variable {lines : List SourceLine} (h : NestedLines lines)
include h

/-- A place is in one line only. -/
theorem NestedLines.line_unique {i j : Nat} {l l' : SourceLine} {s : Span}
    (hi : lines[i]? = some l) (hj : lines[j]? = some l') (hs : s ∈ l.tokens.map (·.span))
    (hs' : s ∈ l'.tokens.map (·.span)) : i = j := by
  have hapart := h.apart
  rw [lineTokens, List.map_flatMap, List.nodup_flatMap] at hapart
  have hdisjoint := List.pairwise_iff_getElem.mp hapart.2
  obtain ⟨hilt, rfl⟩ := List.getElem?_eq_some_iff.mp hi
  obtain ⟨hjlt, rfl⟩ := List.getElem?_eq_some_iff.mp hj
  rcases Nat.lt_trichotomy i j with hlt | heq | hlt
  · exact absurd hs' (hdisjoint i j hilt hjlt hlt hs)
  · exact heq
  · exact absurd hs (hdisjoint j i hjlt hilt hlt hs')

/-- Up to any place, what is open is known. -/
theorem NestedLines.exists_leavesOpen {no : Nat} {l : SourceLine}
    {front rest : List (Located RawToken)} (hl : lines[no]? = some l)
    (htokens : l.tokens = front ++ rest) :
    ∃ opened, LeavesOpen (significant (lineTokens (lines.take no) ++ front)) opened := by
  have hall : lineTokens lines =
      lineTokens (lines.take no) ++ front ++ (rest ++ lineTokens (lines.drop (no + 1))) := by
    rw [lineTokens_eq_append lines (no + 1), lineTokens_take_succ hl, htokens]
    simp only [List.append_assoc]
  have hcloses := h.closes
  rw [hall, significant_append, openAfter?_append] at hcloses
  obtain ⟨opened, hopened, _⟩ := Option.bind_eq_some_iff.mp hcloses
  exact ⟨opened, openAfter?_eq_some_iff.mp hopened⟩

end

/-! ## The stack of the loop -/

/-- One token more, by what it does to what is open. -/
theorem leavesOpen_snoc {ts : List (Located RawToken)} {t : Located RawToken}
    {opened opened' : List (Located Bracket)} (h : LeavesOpen (significant ts) opened)
    (h' : LeavesOpen (significant (ts ++ [t])) opened') :
    (∃ b, t.value.kind.opens? = some b ∧ opened' = ⟨t.span, b⟩ :: opened) ∨
      (∃ b o, t.value.kind.closes? = some b ∧ opened = o :: opened') ∨
      (t.value.kind.opens? = none ∧ t.value.kind.closes? = none ∧ opened' = opened) := by
  have hrun := openAfter?_of_leavesOpen h'
  rw [significant_append, openAfter?_append, openAfter?_of_leavesOpen h, Option.bind_some,
    significant_cons] at hrun
  split at hrun
  · rename_i hskip
    cases hrun
    refine .inr (.inr ?_)
    revert hskip
    cases t.value.kind <;> simp [Kind.isComment, Kind.opens?, Kind.closes?]
  · obtain ⟨behind, hbehind, hlast⟩ := Option.bind_eq_some_iff.mp hrun
    cases hlast
    cases ho : t.value.kind.opens? with
    | some b =>
        rw [openBehind?_of_opens? ho] at hbehind
        cases hbehind
        exact .inl ⟨b, rfl, rfl⟩
    | none =>
        cases hc : t.value.kind.closes? with
        | none =>
            rw [openBehind?_of_other ho hc] at hbehind
            cases hbehind
            exact .inr (.inr ⟨rfl, rfl, rfl⟩)
        | some b =>
            obtain ⟨o, ho, _⟩ := (openBehind?_of_closes?_iff hc).mp hbehind
            exact .inr (.inl ⟨b, o, rfl, ho⟩)

/-- The delimiter as the delimiter rules see it. -/
def OpenDelimiter.located (o : OpenDelimiter) : Located Bracket := ⟨o.span, o.role.bracket⟩

/-- Behind the tokens `passed` of the line `no` the stack is what is open.  Every delimiter on it
stands on the line that it says, and of those from earlier lines the ones that deepen are the ones
that their lines leave as the innermost. -/
structure Tracks (lines : List SourceLine) (no : Nat) (passed : List (Located RawToken))
    (stack : List OpenDelimiter) : Prop where
  opened : LeavesOpen (significant (lineTokens (lines.take no) ++ passed)) (stack.map (·.located))
  spans : (stack.map (·.span)).Sublist
    ((lineTokens (lines.take no) ++ passed).map (·.span)).reverse
  own : ∀ o ∈ stack, ∃ l, lines[o.line]? = some l ∧ o.span ∈ l.tokens.map (·.span)
  marked : ∀ o ∈ stack, o.line < no → (o.indents = true ↔ LeftBy lines o.line o.located)
  once : stack.Pairwise fun o o' => o.indents = true → o'.indents = true → o.line ≠ o'.line

namespace Tracks

section
variable {lines : List SourceLine} {no : Nat} {l : SourceLine} {t : Located RawToken}
  {passed rest : List (Located RawToken)} {stack stack' : List OpenDelimiter}

theorem start (lines : List SourceLine) : Tracks lines 0 [] [] where
  opened := .nested .nil
  spans := .slnil
  own := by simp
  marked := by simp
  once := .nil

/-- A token opens a delimiter. -/
theorem push {role : Role} (h : Tracks lines no passed stack) (hl : lines[no]? = some l)
    (htokens : l.tokens = passed ++ t :: rest)
    (hopened : LeavesOpen (significant (lineTokens (lines.take no) ++ (passed ++ [t])))
      (⟨t.span, role.bracket⟩ :: stack.map (·.located))) :
    Tracks lines no (passed ++ [t]) (⟨role, t.span, no, false⟩ :: stack) where
  opened := hopened
  spans := by
    rw [← List.append_assoc, List.map_append, List.reverse_append]
    exact h.spans.cons_cons t.span
  own := List.forall_mem_cons.mpr ⟨⟨l, hl, by simp [htokens]⟩, h.own⟩
  marked := List.forall_mem_cons.mpr ⟨fun hlt => absurd hlt (Nat.lt_irrefl no), h.marked⟩
  once := .cons (fun _ _ hmark => absurd hmark Bool.false_ne_true) h.once

/-- A token opens nothing, and may close the innermost delimiter. -/
theorem drop (h : Tracks lines no passed stack) (hsub : stack'.Sublist stack)
    (hopened : LeavesOpen (significant (lineTokens (lines.take no) ++ (passed ++ [t])))
      (stack'.map (·.located))) : Tracks lines no (passed ++ [t]) stack' where
  opened := hopened
  spans := by
    rw [← List.append_assoc, List.map_append, List.reverse_append]
    exact ((hsub.map _).trans h.spans).cons t.span
  own o ho := h.own o (hsub.subset ho)
  marked o ho := h.marked o (hsub.subset ho)
  once := h.once.sublist hsub

/-- The next token, by what it does to the stack. -/
theorem step (h : Tracks lines no passed stack) (hnest : NestedLines lines)
    (hl : lines[no]? = some l) (htokens : l.tokens = passed ++ t :: rest) :
    (∃ b, t.value.kind.opens? = some b ∧
        LeavesOpen (significant (lineTokens (lines.take no) ++ (passed ++ [t])))
          (⟨t.span, b⟩ :: stack.map (·.located))) ∨
      (∃ b o outer, t.value.kind.closes? = some b ∧ stack = o :: outer ∧
        LeavesOpen (significant (lineTokens (lines.take no) ++ (passed ++ [t])))
          (outer.map (·.located))) ∨
      (t.value.kind.opens? = none ∧ t.value.kind.closes? = none ∧
        LeavesOpen (significant (lineTokens (lines.take no) ++ (passed ++ [t])))
          (stack.map (·.located))) := by
  have htokens' : l.tokens = (passed ++ [t]) ++ rest := by
    rw [htokens, List.append_assoc]
    rfl
  obtain ⟨opened, hopened⟩ := hnest.exists_leavesOpen hl htokens'
  have hopened' := hopened
  rw [← List.append_assoc] at hopened'
  rcases leavesOpen_snoc h.opened hopened' with ⟨b, ho, rfl⟩ | ⟨b, o, hc, ho⟩ | ⟨ho, hc, rfl⟩
  · exact .inl ⟨b, ho, hopened⟩
  · obtain ⟨x, outer, rfl, _, rfl⟩ := List.map_eq_cons_iff.mp ho
    exact .inr (.inl ⟨b, x, outer, hc, rfl, hopened⟩)
  · exact .inr (.inr ⟨ho, hc, hopened⟩)

/-- No two delimiters on the stack stand at the same place. -/
theorem nodup_span (h : Tracks lines no l.tokens stack) (hnest : NestedLines lines)
    (hl : lines[no]? = some l) : (stack.map (·.span)).Nodup := by
  have hall : (lineTokens (lines.take no) ++ l.tokens).Sublist (lineTokens lines) := by
    rw [← lineTokens_take_succ hl, lineTokens_eq_append lines (no + 1)]
    exact List.sublist_append_left _ _
  exact (List.nodup_reverse.mpr (hnest.apart.sublist (hall.map _))).sublist h.spans

/-- Of what is open, the first that stands in the line is the top of what the line has opened. -/
theorem find?_located {c : LineTally} {inner outer : List OpenDelimiter}
    (h : Tracks lines no l.tokens c.stack) (hnest : NestedLines lines)
    (hl : lines[no]? = some l) (hsplit : c.Split no inner outer) :
    (c.stack.map (·.located)).find? (fun o => o.span ∈ l.tokens.map (·.span)) =
      inner.head?.map (·.located) := by
  have houter : outer.find? (fun o => o.span ∈ l.tokens.map (·.span)) = none := by
    refine List.find?_eq_none.mpr fun o ho hspan => ?_
    obtain ⟨l', hl', hspan'⟩ := h.own o (by simp [hsplit.stack_eq, ho])
    have hline := hnest.line_unique hl' hl hspan' (of_decide_eq_true hspan)
    exact absurd hline (Nat.ne_of_lt (hsplit.above o ho))
  rw [List.find?_map, hsplit.stack_eq]
  show ((inner ++ outer).find? fun o => o.span ∈ l.tokens.map (·.span)).map _ = _
  rw [List.find?_append, houter, Option.or_none]
  cases inner with
  | nil => rfl
  | cons x inner =>
      obtain ⟨l', hl', hspan⟩ := h.own x (by simp [hsplit.stack_eq])
      rw [(hsplit.own x List.mem_cons_self).1, hl, Option.some.injEq] at hl'
      subst hl'
      simp only [List.find?_cons, hspan, decide_true]
      rfl

/-- What a line leaves as the innermost is the top of what it has opened. -/
theorem leftBy_iff {c : LineTally} {inner outer : List OpenDelimiter} {o : Located Bracket}
    (h : Tracks lines no l.tokens c.stack) (hnest : NestedLines lines)
    (hl : lines[no]? = some l) (hsplit : c.Split no inner outer) :
    LeftBy lines no o ↔ inner.head?.map (·.located) = some o := by
  have hfind := h.find?_located hnest hl hsplit
  have hopened := h.opened
  rw [← lineTokens_take_succ hl] at hopened
  constructor
  · rintro ⟨l', opened, hl', hleaves, hleft⟩
    obtain rfl : l = l' := Option.some.inj (hl.symm.trans hl')
    rwa [hleaves.unique hopened, hfind] at hleft
  · exact fun ho => ⟨l, _, hl, hopened, hfind.trans ho⟩

/-- At the end of a line, the delimiter that it leaves as the innermost is marked. -/
theorem endLine {c : LineTally} {inner outer : List OpenDelimiter}
    (h : Tracks lines no l.tokens c.stack) (hnest : NestedLines lines)
    (hl : lines[no]? = some l) (hsplit : c.Split no inner outer) :
    Tracks lines (no + 1) [] c.endLine.stack := by
  have hopened := h.opened
  have hspans := h.spans
  have hnodup := h.nodup_span hnest hl
  have hleft := fun o => @leftBy_iff lines no l c inner outer o h hnest hl hsplit
  rw [← lineTokens_take_succ hl, ← List.append_nil (lineTokens _)] at hopened hspans
  cases inner with
  | nil =>
      rw [hsplit.endLine_nil]
      refine ⟨hopened, hspans, h.own, fun o ho _ => h.marked o ho ?_, h.once⟩
      rw [hsplit.stack_eq] at ho
      exact hsplit.above o ho
  | cons x inner =>
      obtain ⟨⟨hline, _⟩, hinner⟩ := List.forall_mem_cons.mp hsplit.own
      have hstack : c.stack = x :: (inner ++ outer) := hsplit.stack_eq
      rw [hstack] at hopened hspans hnodup
      have hown := h.own
      have hmarked := h.marked
      have honce := h.once
      rw [hstack] at hown hmarked honce
      rw [hsplit.endLine_cons]
      refine ⟨hopened, hspans, ?_, ?_, ?_⟩
      · exact List.forall_mem_cons.mpr (List.forall_mem_cons.mp hown)
      · refine List.forall_mem_cons.mpr ⟨fun _ => iff_of_true rfl ?_, fun o ho _ => ?_⟩
        · show LeftBy lines x.line x.located
          rw [hline]
          exact (hleft x.located).mpr rfl
        · rcases List.mem_append.mp ho with hin | hout
          · -- it stands at another place than the innermost delimiter of the line
            obtain ⟨holine, homark⟩ := hinner o hin
            refine iff_of_false (by simp [homark]) fun hleaves => ?_
            rw [holine, hleft] at hleaves
            have hspan : x.span = o.span := congrArg Located.span (Option.some.inj hleaves)
            exact (List.nodup_cons.mp hnodup).1 (List.mem_map.mpr ⟨o, ho, hspan.symm⟩)
          · exact hmarked o (List.mem_cons_of_mem x ho) (hsplit.above o hout)
      · refine .cons (fun o ho _ homark => ?_) (List.pairwise_cons.mp honce).2
        rcases List.mem_append.mp ho with hin | hout
        · rw [(hinner o hin).2] at homark
          exact absurd homark Bool.false_ne_true
        · show x.line ≠ o.line
          rw [hline]
          exact (Nat.ne_of_lt (hsplit.above o hout)).symm

end

end Tracks

/-! ## The counter at a place -/

theorem isLabel_eq (source : List Char) (l : SourceLine) :
    beginsWithLabel (l.tokens.map (Piece.ofToken source)) = l.isLabel := by
  rw [beginsWithLabel, SourceLine.isLabel, List.head?_map, Option.map_map]
  cases l.tokens.head? with
  | none => rfl
  | some t =>
      show (["case", "default"].any fun w => _) = _
      simp [Piece.isWord, Piece.ofToken, Bool.and_or_distrib_left]

namespace LineTally

theorem behind_stack_of_other {o : OpenDelimiter} {kind : Kind} (ho : kind.opens? = none)
    (hc : kind.closes? = none) (c : LineTally) : (c.behind o kind).stack = c.stack := by
  rw [behind, ho, hc]
  rfl

theorem behind_stack_of_opens {o : OpenDelimiter} {kind : Kind} {b : Bracket}
    (ho : kind.opens? = some b) (c : LineTally) : (c.behind o kind).stack = o :: c.stack := by
  rw [behind, ho]
  rfl

end LineTally

section
variable {source : List Char} {lines : List SourceLine} {no : Nat} {t : Located RawToken}
  {passed rest : List (Located RawToken)} {c : LineTally}

theorem Reaches.tracks (h : Reaches source lines no passed rest c) (hnest : NestedLines lines) :
    Tracks lines no passed c.stack := by
  induction h with
  | start _ => exact .start lines
  | @token no passed rest t c hreach ih =>
      obtain ⟨l, hl, htokens⟩ := hreach.line_eq
      show Tracks lines no (passed ++ [t]) (c.behind _ t.value.kind).stack
      rcases ih.step hnest hl htokens with
        ⟨b, ho, hopened⟩ | ⟨b, o, outer, hc, hstack, hopened⟩ | ⟨ho, hc, hopened⟩
      · rw [LineTally.behind_stack_of_opens ho]
        refine ih.push hl htokens ?_
        rwa [roleOf_bracket ho]
      · rw [LineTally.behind_of_closer (by simp [hc]), LineTally.closed_stack, hstack]
        rw [hstack] at ih
        exact ih.drop (List.sublist_cons_self o outer) hopened
      · rw [LineTally.behind_stack_of_other ho hc]
        exact ih.drop (List.Sublist.refl _) hopened
  | line hreach _ ih =>
      obtain ⟨l, hl, rfl⟩ := hreach.whole_line
      obtain ⟨inner, outer, hsplit⟩ := hreach.split
      exact ih.endLine hnest hl hsplit

/-- A closing delimiter finds one to close; if that deepens lines, then the level is not zero. -/
theorem Reaches.exists_innermost (h : Reaches source lines no passed (t :: rest) c)
    (hnest : NestedLines lines) (hc : t.value.kind.closes?.isSome = true) :
    ∃ o outer, c.stack = o :: outer ∧ (o.indents = true → 0 < c.level) := by
  obtain ⟨l, hl, htokens⟩ := h.line_eq
  obtain ⟨b, hb⟩ := Option.isSome_iff_exists.mp hc
  rcases (h.tracks hnest).step hnest hl htokens with ⟨_, ho, _⟩ | ⟨_, o, outer, _, hstack, _⟩ |
    ⟨_, hnone, _⟩
  · rw [opens?_eq_none_of_closes? hb] at ho
    cases ho
  · refine ⟨o, outer, hstack, fun ho => ?_⟩
    rw [h.level_eq, hstack]
    exact List.countP_pos_iff.mpr ⟨o, List.mem_cons_self, ho⟩
  · rw [hb] at hnone
    cases hnone

/-- The lines that deepen are those of the marks. -/
theorem Reaches.deepens_iff (h : Reaches source lines no passed rest c)
    (hnest : NestedLines lines) {k : Nat} :
    k < no ∧ Deepens lines no passed k ↔ ∃ o ∈ c.stack, o.indents = true ∧ o.line = k := by
  have htracks := h.tracks hnest
  obtain ⟨inner, outer, hsplit⟩ := h.split
  simp only [Deepens, openBehind_iff htracks.opened, List.mem_map]
  constructor
  · rintro ⟨hk, _, hleft, o, ho, rfl⟩
    obtain rfl : o.line = k := by
      obtain ⟨l, opened, hl, _, hfind⟩ := hleft
      obtain ⟨l', hl', hspan⟩ := htracks.own o ho
      have hspan' : o.located.span ∈ l.tokens.map (·.span) := by
        simpa using List.find?_some hfind
      exact hnest.line_unique hl' hl hspan hspan'
    exact ⟨o, ho, (htracks.marked o ho hk).mpr hleft, rfl⟩
  · rintro ⟨o, ho, hmark, rfl⟩
    have hlt := hsplit.line_lt ho hmark
    exact ⟨hlt, o.located, (htracks.marked o ho hlt).mp hmark, o, ho, rfl⟩

/-- **The level counts the lines that deepen.** -/
theorem Reaches.deepening_eq (h : Reaches source lines no passed rest c)
    (hnest : NestedLines lines) : deepening lines no passed = c.level := by
  have hnodup : ((c.stack.filter (·.indents)).map (·.line)).Nodup := by
    rw [List.Nodup, List.pairwise_map, List.pairwise_filter]
    exact (h.tracks hnest).once
  have hperm : ((List.range no).filter (Deepens lines no passed ·)).Perm
      ((c.stack.filter (·.indents)).map (·.line)) := by
    refine (List.perm_ext_iff_of_nodup (List.nodup_range.filter _) hnodup).mpr fun k => ?_
    simp only [List.mem_filter, List.mem_range, List.mem_map, decide_eq_true_eq, and_assoc]
    exact h.deepens_iff hnest
  rw [deepening, List.countP_eq_length_filter, hperm.length_eq, List.length_map,
    ← List.countP_eq_length_filter, h.level_eq]

/-- The depth of the line is the level behind its leading closers. -/
theorem Reaches.indent_eq (h : Reaches source lines no passed rest c) (hnest : NestedLines lines) :
    c.indent = deepening lines no (closersOf passed) := by
  induction h with
  | start hl => exact ((@Reaches.start source _ _ hl).deepening_eq hnest).symm
  | line hreach hl _ => exact ((Reaches.line hreach hl).deepening_eq hnest).symm
  | @token no passed rest t c hreach ih =>
      have hlevel := hreach.token.deepening_eq hnest
      have hleading := hreach.arranges.leading
      show (c.behind _ t.value.kind).indent = _
      cases hc : t.value.kind.closes?.isSome with
      | false => rw [(LineTally.behind_of_other hc c).2, closersOf_snoc hc, ih]
      | true =>
          obtain ⟨o, outer, hstack, _⟩ := hreach.exists_innermost hnest hc
          rw [LineTally.behind_of_closer hc, LineTally.closed_indent, hleading, hstack]
          cases hall : passed.all (·.value.kind.closes?.isSome) with
          | false =>
              rw [closersOf_append hall, ← ih]
              simp
          | true =>
              have hall' : (passed ++ [t]).all (·.value.kind.closes?.isSome) = true := by
                simp [List.all_append, hall, hc]
              rw [closersOf_eq_self hall', hlevel]
              show _ = (c.behind _ t.value.kind).level
              rw [LineTally.behind_of_closer hc]
              simp

/-- Behind the last line nothing is open. -/
theorem Reaches.endLine_last (h : Reaches source lines no passed [] c) (hnest : NestedLines lines)
    (hlast : no + 1 = lines.length) : c.endLine = ⟨[], 0⟩ := by
  obtain ⟨l, hl, rfl⟩ := h.whole_line
  obtain ⟨inner, outer, hsplit⟩ := h.split
  have hopened := ((h.tracks hnest).endLine hnest hl hsplit).opened
  rw [hlast, List.take_length, List.append_nil] at hopened
  have hnone := hopened.unique (openAfter?_eq_some_iff.mp hnest.closes)
  have hstack : c.endLine.stack = [] := List.map_eq_nil_iff.mp hnone
  have hlevel : c.endLine.level = _ := hsplit.next.level_eq
  rw [hstack] at hlevel
  cases hend : c.endLine with
  | mk stack level =>
      rw [hend] at hstack hlevel
      simp only at hstack hlevel
      rw [hstack, hlevel]
      rfl

end

/-! ## Rows and what is written for them -/

/-- The row of a line is as deep as the line stands. -/
theorem depth_of_setSourceLines {source : List Char} {lines : List SourceLine} {no : Nat}
    {l : SourceLine} {r : SetRow} (hnest : NestedLines lines) (hl : lines[no]? = some l)
    (hr : (setSourceLines source [] lines)[no]? = some r) : r.depth = depthOf lines no l := by
  obtain ⟨c, hc⟩ := @exists_reaches source _ _ _ _ _ hl (List.append_nil l.tokens).symm
  have hrow := hc.row_eq
  rw [List.getElem?_map, hr, Option.map_some, Option.some.injEq] at hrow
  have hdepth : r.depth = _ := congrArg Row.depth hrow
  rw [hdepth, LineTally.row, hc.indent_eq hnest, isLabel_eq, depthOf]

/-- Only the inner one of the two delimiters that the third line opens counts, and the label below
it stands one tab further out. -/
example : (rawTokens "f(\x7b\na\n\x7d) (\x7b\ncase b:\nc\x7d)").map (fun ts =>
    (sourceLines ts).mapIdx (depthOf (sourceLines ts))) = .ok [0, 1, 0, 0, 1] := by
  decide

/-- The number of tabs that a text begins with. -/
def leadingTabs (cs : List Char) : Nat := (cs.takeWhile (· == '\t')).length

/-- No token begins with a tab. -/
theorem SetFrom.leadingTabs_eq {source : List Char} {l : SourceLine} {r : SetRow}
    (h : SetFrom source l r) (hs : r.pieces.head?.all (!·.spaced) = true) (hl : l.tokens ≠ [])
    (hread : ∀ t ∈ l.tokens, t.value.kind ≠ .newline ∧ Spells t.value.kind t.value.text) :
    leadingTabs r.pageRow.row.render = r.depth := by
  obtain ⟨cs, hcs, htext⟩ := h.spacedTexts hs hl
  obtain ⟨t, ts, hts⟩ := List.exists_cons_of_ne_nil hl
  rw [hts, List.map_cons] at hcs
  obtain ⟨more, rfl⟩ := hcs.head_eq
  obtain ⟨hk, hspells⟩ := hread t (hts ▸ List.mem_cons_self)
  obtain ⟨c, tail, ht, hc, _⟩ := hspells.head_eq hk
  have hne : (c == '\t') = false := by
    simp only [isBlank, Bool.or_eq_false_iff] at hc
    exact hc.1.2
  rw [leadingTabs, htext, ht, List.cons_append, List.takeWhile_append_of_pos (by simp),
    List.takeWhile_cons_of_neg (by simp [hne]), List.append_nil, List.length_replicate]

/-! ## Whole sources -/

/-- The text is that of the lines, each behind as many tabs as it is deep. -/
def WrittenDeep (lines : List SourceLine) (closed : Bool) (out : List Char) : Prop :=
  ∃ ws : List WrittenLine, ws.map (·.line) = lines ∧ (∀ w ∈ ws, w.IsVerbatim) ∧
    out = writtenPage closed ws ∧
    ∀ no w, ws[no]? = some w → leadingTabs w.text = depthOf lines no w.line

/-- The rows can be found with a counter.  The loop comes by at every place of the lines; its level
is the number of the open delimiters that are marked; a closing delimiter finds one to close, and
the level is not zero if that is marked; a line marks nothing, or a delimiter of its own that was
not marked; and behind the last line nothing is open and the level is zero. -/
structure CountsLevels (source : List Char) (lines : List SourceLine) (rows : List PageRow) :
    Prop where
  reached : ∀ no l passed rest, lines[no]? = some l → l.tokens = passed ++ rest →
    ∃ c, Reaches source lines no passed rest c
  level : ∀ no passed rest c, Reaches source lines no passed rest c →
    c.level = c.stack.countP (·.indents)
  closes : ∀ no passed t rest c, Reaches source lines no passed (t :: rest) c →
    t.value.kind.closes?.isSome = true →
    ∃ o outer, c.stack = o :: outer ∧ (o.indents = true → 0 < c.level)
  marks : ∀ no passed c, Reaches source lines no passed [] c →
    c.endLine = c.toTally ∨ ∃ o outer, c.stack = o :: outer ∧ o.line = no ∧ o.indents = false ∧
      c.endLine = ⟨{ o with indents := true } :: outer, c.level + 1⟩
  ends : ∀ no passed c, Reaches source lines no passed [] c → no + 1 = lines.length →
    c.endLine = ⟨[], 0⟩
  writes : ∀ no passed c, Reaches source lines no passed [] c →
    (rows.map (·.row))[no]? = some (c.row (passed.map (Piece.ofToken source)))

theorem writtenDeep_of_reformat {source out : String} {ts : List (Located RawToken)}
    (h : reformat source = .ok out) (hts : rawTokens source = .ok ts) :
    WrittenDeep (sourceLines ts) (ts.any (·.value.kind == .newline)) out.toList := by
  have hnest := nestedLines_of_reformat h hts
  have hset := setFrom_of_rawTokens hts
  obtain ⟨ws, hlines, htexts, hverbatim, _, hpage⟩ :=
    exists_writtenLines hset (setRowsOf_laid source) SourceLine.tokens_ne_nil
  refine ⟨ws, hlines, hverbatim, ?_, fun no w hw => ?_⟩
  · rw [toList_eq_renderPage h, any_newline_piecesOf hts, rowsOf_eq, hpage]
  · have hl : (sourceLines ts)[no]? = some w.line := by
      rw [← hlines, List.getElem?_map, hw]
      rfl
    have htext := congrArg (·[no]?) htexts
    simp only [List.getElem?_map, hw, Option.map_some] at htext
    obtain ⟨r, hr, hrender⟩ := Option.map_eq_some_iff.mp htext.symm
    have hfrom : SetFrom source.toList w.line r := by
      obtain ⟨hno, hline⟩ := List.getElem?_eq_some_iff.mp hl
      obtain ⟨hno', hrow⟩ := List.getElem?_eq_some_iff.mp hr
      rw [← hline, ← hrow]
      exact hset.get hno hno'
    have hmem : w.line ∈ sourceLines ts := List.mem_of_getElem? hl
    have hs := (setRowsOf_laid source r (List.mem_of_getElem? hr)).2
    rw [← hrender, hfrom.leadingTabs_eq hs (SourceLine.tokens_ne_nil _ hmem)
      (spells_of_sourceLines hts hmem)]
    rw [setRowsOf_eq hts] at hr
    exact depth_of_setSourceLines hnest hl hr

theorem countsLevels_of_reformat {source out : String} {ts : List (Located RawToken)}
    (h : reformat source = .ok out) (hts : rawTokens source = .ok ts) :
    CountsLevels source.toList (sourceLines ts) (rowsOf source) where
  reached _ _ _ _ := exists_reaches
  level _ _ _ _ := Reaches.level_eq
  closes _ _ _ _ _ hreach := hreach.exists_innermost (nestedLines_of_reformat h hts)
  marks _ _ _ hreach := hreach.endLine_cases.imp_left And.left
  ends _ _ _ hreach := hreach.endLine_last (nestedLines_of_reformat h hts)
  writes no passed c hreach := by
    rw [rowsOf_eq, setRowsOf_eq hts, List.map_map]
    exact hreach.row_eq

/-- **A line is as deep as there are lines above that deepen it.**  If bytes are laid out they are
a text, and what is written for a line of it stands behind as many tabs as there are earlier lines
that leave open a delimiter of their own, the innermost of which is still open behind the closing
delimiters that the line begins with; behind one less, if there are any, if it begins with a label.
The loop that finds this by counting never loses count. -/
theorem reformatBytes_depth {bytes : ByteArray} {out : String}
    (h : reformatBytes bytes = .ok out) : ∃ source ts, String.fromUTF8? bytes = some source ∧
      rawTokens source = .ok ts ∧
      WrittenDeep (sourceLines ts) (ts.any (·.value.kind == .newline)) out.toList ∧
      CountsLevels source.toList (sourceLines ts) (rowsOf source) := by
  cases hb : String.fromUTF8? bytes with
  | none =>
      rw [reformatBytes_of_no_text hb] at h
      cases h
  | some source =>
      rw [reformatBytes_of_text hb] at h
      obtain ⟨ts, hts⟩ := rawTokens_of_reformat h
      exact ⟨source, ts, rfl, hts, writtenDeep_of_reformat h hts, countsLevels_of_reformat h hts⟩

/-- A line that closes two delimiters and opens two others, and a label. -/
theorem reformatBytes_depth_label :
    reformatBytes "f(\x7b\na\n\x7d) (\x7b\ncase b:\nc\x7d)".toUTF8 =
        .ok "f(\x7b\n\ta\n\x7d) (\x7b\ncase b:\n\tc\x7d)\n" ∧
      ∃ source ts,
        String.fromUTF8? "f(\x7b\na\n\x7d) (\x7b\ncase b:\nc\x7d)".toUTF8 = some source ∧
        rawTokens source = .ok ts ∧
        WrittenDeep (sourceLines ts) (ts.any (·.value.kind == .newline))
          "f(\x7b\n\ta\n\x7d) (\x7b\ncase b:\n\tc\x7d)\n".toList ∧
        CountsLevels source.toList (sourceLines ts) (rowsOf source) := by
  have h : reformatBytes "f(\x7b\na\n\x7d) (\x7b\ncase b:\nc\x7d)".toUTF8 =
      .ok "f(\x7b\n\ta\n\x7d) (\x7b\ncase b:\n\tc\x7d)\n" := by
    rw [reformatBytes_toUTF8]
    decide
  exact ⟨h, reformatBytes_depth h⟩

end MethodSkeleton
