/-
# `MethodSkeleton.Proofs.Layout.Agreement` — what the layout takes from the layout it is given

Two texts with the same tokens on the same lines may be laid out very differently to begin with.
What is written for them is the same as soon as they agree on a little (`AgreeInLayout`): whether
there is a line break at all, between which lines empty ones stand, and for neighbours on a line
whether the first has a blank directly behind it and the second a space or a tab directly in front
of it.  Indentation, blanks at the end of a line, the width of gaps, the kind of line breaks and
the number of empty lines are left out of this, so they never matter; and neither does anything for
whether a text is refused and with which complaint.

Both runs go through a line from the same state.  The blanks at its two ends are the ones that
differ: nothing is asked about the blank in front of a first token, and what is remembered of the
last one is never asked for.
-/
import MethodSkeleton.Proofs.Layout.FixedPoint
import MethodSkeleton.Proofs.Layout.Lines

namespace MethodSkeleton

/-! ## What two texts agree on -/

/-- For neighbours: whether a blank or the end of a line stands directly behind the first, and
whether a space or a tab stands directly in front of the second. -/
def gaps (source : List Char) : List (Located RawToken) → List (Bool × Bool)
  | x :: y :: line =>
    (Piece.endsAt (charAt? source x.span.stop), Piece.setsOff (charBefore? source y.span.start)) ::
      gaps source (y :: line)
  | _ => []

/-- The lines have the same tokens, kind and text, and agree on what stands between them. -/
structure AgreeOnLine (s t : List Char) (l m : SourceLine) : Prop where
  values : l.tokens.map (·.value) = m.tokens.map (·.value)
  gaps : gaps s l.tokens = gaps t m.tokens

/-- The text `s` with the tokens `ts` and the text `t` with the tokens `us`: the lines that hold
tokens correspond, and between two of them both have an empty line or neither has. -/
structure AgreeInLayout (s t : List Char) (ts us : List (Located RawToken)) : Prop where
  broken : (∃ x ∈ ts, x.value.kind = .newline) ↔ ∃ y ∈ us, y.value.kind = .newline
  lines : List.Forall₂ (AgreeOnLine s t) (sourceLines ts) (sourceLines us)
  blanks : List.Forall₂ (fun l m => 0 < l.blanks ↔ 0 < m.blanks)
    (sourceLines ts).tail (sourceLines us).tail

/-! ## One token -/

section
variable {traits : LineTraits} {openings : Openings} {prev : Option Written} {p q : Piece}
  {next : Option Kind}

theorem spaceBefore_congr (ht : q.token = p.token)
    (hb : prev.isSome = true → q.blankBefore = p.blankBefore) :
    spaceBefore traits openings prev q next = spaceBefore traits openings prev p next := by
  obtain ⟨kind, text, before, after⟩ := p
  obtain ⟨kind', text', before', after'⟩ := q
  cases ht
  cases prev with
  | none => rfl
  | some w =>
      obtain rfl : before' = before := hb rfl
      rfl

theorem openingsBehind_congr (ht : q.token = p.token)
    (hb : prev.isSome = true → q.blankBefore = p.blankBefore) (spaced : Bool) :
    openingsBehind openings prev q spaced next = openingsBehind openings prev p spaced next := by
  obtain ⟨kind, text, before, after⟩ := p
  obtain ⟨kind', text', before', after'⟩ := q
  cases ht
  cases prev with
  | none => rfl
  | some w =>
      obtain rfl : before' = before := hb rfl
      rfl

/-- Only here the blank behind the token is looked at. -/
theorem writtenAs_congr (ht : q.token = p.token)
    (hb : prev.isSome = true → q.blankBefore = p.blankBefore)
    (ha : q.blankAfter = p.blankAfter) (spaced : Bool) :
    writtenAs openings prev q spaced = writtenAs openings prev p spaced := by
  obtain ⟨kind, text, before, after⟩ := p
  obtain ⟨kind', text', before', after'⟩ := q
  cases ht
  obtain rfl : after' = after := ha
  cases prev with
  | none => rfl
  | some w =>
      obtain rfl : before' = before := hb rfl
      rfl

end

/-! ## One line -/

/-- The same tokens with the same blanks between them; in front of the first and behind the last
they may differ. -/
inductive SpacedAlike : List Piece → List Piece → Prop
  | nil : SpacedAlike [] []
  | last {p q : Piece} : q.token = p.token → SpacedAlike [p] [q]
  | cons {p p' q q' : Piece} {ps qs : List Piece} : q.token = p.token →
      q.blankAfter = p.blankAfter → q'.blankBefore = p'.blankBefore →
      SpacedAlike (p' :: ps) (q' :: qs) → SpacedAlike (p :: p' :: ps) (q :: q' :: qs)

theorem spacedAlike_of_gaps {s t : List Char} {line line' : List (Located RawToken)}
    (hv : line'.map (·.value) = line.map (·.value)) (hg : gaps t line' = gaps s line) :
    SpacedAlike (line.map (Piece.ofToken s)) (line'.map (Piece.ofToken t)) := by
  induction line generalizing line' with
  | nil =>
      rw [List.map_eq_nil_iff.mp hv]
      exact .nil
  | cons x line ih =>
      obtain ⟨x', line', rfl, hx, hline⟩ := List.map_eq_cons_iff.mp hv
      have htoken : (Piece.ofToken t x').token = (Piece.ofToken s x).token := hx
      cases line with
      | nil =>
          rw [List.map_eq_nil_iff.mp hline]
          exact .last htoken
      | cons y line =>
          obtain ⟨y', line', rfl, _, _⟩ := List.map_eq_cons_iff.mp hline
          obtain ⟨hgap, hgaps⟩ := List.cons.inj hg
          obtain ⟨hafter, hbefore⟩ := Prod.mk.inj hgap
          exact .cons htoken hafter hbefore (ih hline hgaps)

section
variable {ps qs : List Piece} (h : SpacedAlike ps qs)
include h

theorem SpacedAlike.map_token : qs.map Piece.token = ps.map Piece.token := by
  induction h with
  | nil => rfl
  | last ht => exact congrArg (· :: []) ht
  | @cons p p' q q' ps qs ht _ _ _ ih =>
      rw [List.map_cons, ht, ih]
      rfl

omit h in
theorem arrangeWords_cons (traits : LineTraits) (openings : Openings) (prev : Option Written)
    (p : Piece) (ps : List Piece) : arrangeWords traits openings prev (p :: ps) =
      let next := ps.head?.map (·.kind)
      let spaced := spaceBefore traits openings prev p next
      let rest := arrangeWords traits (openingsBehind openings prev p spaced next)
        (some (writtenAs openings prev p spaced)) ps
      (⟨spaced, p.text⟩ :: rest.1, rest.2) := rfl

/-- Both lines are arranged alike, behind the same token and inside of the same delimiters. -/
theorem SpacedAlike.arrangeWords_eq {traits : LineTraits} {openings : Openings}
    {prev : Option Written}
    (hb : prev.isSome = true → qs.head?.map (·.blankBefore) = ps.head?.map (·.blankBefore)) :
    arrangeWords traits openings prev qs = arrangeWords traits openings prev ps := by
  induction h generalizing openings prev with
  | nil => rfl
  | @last p q ht =>
      have hb : prev.isSome = true → q.blankBefore = p.blankBefore :=
        fun hp => Option.some.inj (hb hp)
      have htext : q.text = p.text := congrArg RawToken.text ht
      simp only [arrangeWords, spaceBefore_congr ht hb, openingsBehind_congr ht hb, htext]
  | @cons p p' q q' ps qs ht hafter hbefore hrest ih =>
      have hb : prev.isSome = true → q.blankBefore = p.blankBefore :=
        fun hp => Option.some.inj (hb hp)
      have htext : q.text = p.text := congrArg RawToken.text ht
      have hnext : (q' :: qs).head?.map (·.kind) = (p' :: ps).head?.map (·.kind) := by
        have hkinds := congrArg (List.map RawToken.kind) hrest.map_token
        exact congrArg some (List.cons.inj hkinds).1
      rw [arrangeWords_cons, arrangeWords_cons _ _ _ p]
      simp only [hnext, spaceBefore_congr ht hb, openingsBehind_congr ht hb,
        writtenAs_congr ht hb hafter, htext]
      rw [ih fun _ => congrArg some hbefore]

theorem SpacedAlike.arrangeRow_eq (openings : List Opening) :
    arrangeRow openings qs = arrangeRow openings ps := by
  have hwords : arrangeWords (.ofLine ps) ⟨openings, []⟩ none qs = _ :=
    h.arrangeWords_eq fun hp => by cases hp
  rw [arrangeRow, LineTraits.ofLine_congr h.map_token, rowDepth_congr h.map_token, hwords]
  rfl

end

/-! ## Whole sources -/

section
variable {s t : List Char}

theorem AgreeOnLine.arrangeRow_eq {l m : SourceLine} (h : AgreeOnLine s t l m)
    (openings : List Opening) :
    arrangeRow openings (l.tokens.map (Piece.ofToken s)) =
      arrangeRow openings (m.tokens.map (Piece.ofToken t)) :=
  (spacedAlike_of_gaps h.values h.gaps).arrangeRow_eq openings

/-- Lines that agree make the same rows. -/
theorem setSourceLines_congr {ls ms : List SourceLine} (h : List.Forall₂ (AgreeOnLine s t) ls ms)
    (hb : List.Forall₂ (fun l m : SourceLine => 0 < l.blanks ↔ 0 < m.blanks) ls ms)
    (openings : List Opening) :
    (setSourceLines s openings ls).map SetRow.pageRow =
      (setSourceLines t openings ms).map SetRow.pageRow := by
  induction h generalizing openings with
  | nil => rfl
  | @cons l m ls ms hl _ ih =>
      cases hb with
      | cons hblanks hb =>
          simp only [setSourceLines, List.map_cons, pageRow_setLine, hl.arrangeRow_eq openings,
            ih hb, hblanks]

/-- A page does not depend on the empty lines above its first row. -/
theorem renderPage_setSourceLines_congr {ls ms : List SourceLine}
    (h : List.Forall₂ (AgreeOnLine s t) ls ms)
    (hb : List.Forall₂ (fun l m : SourceLine => 0 < l.blanks ↔ 0 < m.blanks) ls.tail ms.tail)
    (closed : Bool) :
    renderPage closed ((setSourceLines s [] ls).map SetRow.pageRow) =
      renderPage closed ((setSourceLines t [] ms).map SetRow.pageRow) := by
  cases h with
  | nil => rfl
  | cons hl hls =>
      simp only [setSourceLines, List.map_cons, pageRow_setLine, hl.arrangeRow_eq []]
      rw [setSourceLines_congr hls hb]
      rfl

end

/-- The visible tokens of a source, line by line. -/
theorem visibleTokens_eq (ts : List (Located RawToken)) :
    visibleTokens ts = (sourceLines ts).flatMap (·.tokens.map (·.value)) := by
  rw [← List.map_flatMap, sourceLines_flatMap_tokens, visibleTokens, List.filter_map]
  rfl

theorem AgreeInLayout.visibleTokens_eq {s t : List Char} {ts us : List (Located RawToken)}
    (h : AgreeInLayout s t ts us) : visibleTokens ts = visibleTokens us := by
  rw [MethodSkeleton.visibleTokens_eq, MethodSkeleton.visibleTokens_eq]
  have hlines := h.lines
  generalize sourceLines ts = ls at hlines ⊢
  generalize sourceLines us = ms at hlines ⊢
  induction hlines with
  | nil => rfl
  | cons hl _ ih => rw [List.flatMap_cons, List.flatMap_cons, hl.values, ih]

/-- **How a text was laid out never matters.**  If two texts have the same tokens on corresponding
lines and agree on the blanks between neighbours and on the empty lines between lines, then either
the same is written for both, or both are refused for the same reason. -/
theorem reformatBytes_agree {s t : String} {ts us : List (Located RawToken)}
    (hs : rawTokens s = .ok ts) (ht : rawTokens t = .ok us)
    (h : AgreeInLayout s.toList t.toList ts us) :
    (reformatBytes s.toUTF8).mapError (·.cause) = (reformatBytes t.toUTF8).mapError (·.cause) := by
  have hfault : (nestingFault? [] none (significant ts)).map (·.cause) =
      (nestingFault? [] none (significant us)).map (·.cause) := by
    refine nestingFault?_cause_congr rfl ?_
    rw [significant_map_value, significant_map_value, h.visibleTokens_eq]
  have hclosed : ts.any (·.value.kind == .newline) = us.any (·.value.kind == .newline) := by
    rw [Bool.eq_iff_iff]
    simpa using h.broken
  rw [reformatBytes_toUTF8, reformatBytes_toUTF8, reformat_of_rawTokens hs,
    reformat_of_rawTokens ht, hclosed, renderPage_setSourceLines_congr h.lines h.blanks]
  cases hf : nestingFault? [] none (significant ts) with
  | none =>
      rw [hf, Option.map_none, eq_comm, Option.map_eq_none_iff] at hfault
      rw [hfault]
  | some e =>
      rw [hf, Option.map_some, eq_comm, Option.map_eq_some_iff] at hfault
      obtain ⟨e', he, hcause⟩ := hfault
      rw [he]
      exact congrArg Except.error hcause.symm

/-- Other indentation, wider gaps, other line breaks and more empty lines. -/
theorem reformatBytes_agree_star : ∃ ts us,
    rawTokens "a *b\n\nc" = .ok ts ∧ rawTokens "\r\n\ta   *b \r\n \t\n\n  c\r" = .ok us ∧
      AgreeInLayout "a *b\n\nc".toList "\r\n\ta   *b \r\n \t\n\n  c\r".toList ts us ∧
      (reformatBytes "a *b\n\nc".toUTF8).mapError (·.cause) =
        (reformatBytes "\r\n\ta   *b \r\n \t\n\n  c\r".toUTF8).mapError (·.cause) := by
  let ts : List (Located RawToken) :=
    [⟨⟨0, 1⟩, .identifier, ['a']⟩, ⟨⟨2, 3⟩, .star, ['*']⟩, ⟨⟨3, 4⟩, .identifier, ['b']⟩,
      ⟨⟨4, 5⟩, .newline, ['\n']⟩, ⟨⟨5, 6⟩, .newline, ['\n']⟩, ⟨⟨6, 7⟩, .identifier, ['c']⟩]
  let us : List (Located RawToken) :=
    [⟨⟨0, 2⟩, .newline, ['\r', '\n']⟩, ⟨⟨3, 4⟩, .identifier, ['a']⟩, ⟨⟨7, 8⟩, .star, ['*']⟩,
      ⟨⟨8, 9⟩, .identifier, ['b']⟩, ⟨⟨10, 12⟩, .newline, ['\r', '\n']⟩,
      ⟨⟨14, 15⟩, .newline, ['\n']⟩, ⟨⟨15, 16⟩, .newline, ['\n']⟩, ⟨⟨18, 19⟩, .identifier, ['c']⟩,
      ⟨⟨19, 20⟩, .newline, ['\r']⟩]
  have hs : rawTokens "a *b\n\nc" = .ok ts := by rfl
  have ht : rawTokens "\r\n\ta   *b \r\n \t\n\n  c\r" = .ok us := by rfl
  have hagree : AgreeInLayout "a *b\n\nc".toList "\r\n\ta   *b \r\n \t\n\n  c\r".toList ts us :=
    { broken := by decide
      lines := .cons ⟨rfl, rfl⟩ (.cons ⟨rfl, rfl⟩ .nil)
      blanks := .cons (by decide) .nil }
  exact ⟨ts, us, hs, ht, hagree, reformatBytes_agree hs ht hagree⟩

end MethodSkeleton
