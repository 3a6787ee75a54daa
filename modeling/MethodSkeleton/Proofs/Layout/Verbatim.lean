/-
# `MethodSkeleton.Proofs.Layout.Verbatim` — the layout touches nothing but the layout

What is written for a source is one output line for every line of the source that holds a token,
in their order.  An output line is some tabs and then the texts of the tokens of its line, as they
are written in the source, with one space or nothing between neighbours (`SpacedTexts`).  Between
two output lines stands one empty line or none, as there were empty lines between the two lines of
the source or not.

A token's text may hold line feeds itself, as that of a comment or a raw string does; so an output
line is no line of the text that is written, and this is said of the source and the page together
(`WrittenLine`), never by cutting the page at its line feeds.
-/
import MethodSkeleton.Proofs.Layout.Lines

namespace MethodSkeleton

/-! ## One line -/

/-- Texts one after another, with one space or nothing between neighbours. -/
inductive SpacedTexts : List (List Char) → List Char → Prop
  | last (text : List Char) : SpacedTexts [text] text
  | glued {text next cs : List Char} {texts : List (List Char)} :
      SpacedTexts (next :: texts) cs → SpacedTexts (text :: next :: texts) (text ++ cs)
  | spaced {text next cs : List Char} {texts : List (List Char)} :
      SpacedTexts (next :: texts) cs → SpacedTexts (text :: next :: texts) (text ++ ' ' :: cs)

theorem SpacedTexts.head_eq {text cs : List Char} {texts : List (List Char)}
    (h : SpacedTexts (text :: texts) cs) : ∃ more, cs = text ++ more := by
  cases h with
  | last => exact ⟨[], (List.append_nil text).symm⟩
  | glued _ => exact ⟨_, rfl⟩
  | spaced _ => exact ⟨_, rfl⟩

theorem SpacedTexts.last_eq {texts : List (List Char)} {cs : List Char} (h : SpacedTexts texts cs) :
    ∃ front text, texts.getLast? = some text ∧ cs = front ++ text := by
  induction h with
  | last text => exact ⟨[], text, rfl, rfl⟩
  | @glued text next cs texts _ ih =>
      obtain ⟨front, last, hlast, rfl⟩ := ih
      refine ⟨text ++ front, last, ?_, (List.append_assoc ..).symm⟩
      rw [List.getLast?_cons_cons, hlast]
  | @spaced text next cs texts _ ih =>
      obtain ⟨front, last, hlast, rfl⟩ := ih
      refine ⟨text ++ ' ' :: front, last, ?_, (List.append_assoc _ (' ' :: front) _).symm⟩
      rw [List.getLast?_cons_cons, hlast]

/-- The words of a row are the texts of its tokens. -/
theorem spacedTexts_render (x : SetPiece) (xs : List SetPiece) :
    SpacedTexts ((x :: xs).map (·.piece.text))
      (x.piece.text ++ (xs.map SetPiece.word).flatMap Word.render) := by
  induction xs generalizing x with
  | nil =>
      rw [List.map_nil, List.flatMap_nil, List.append_nil]
      exact .last x.piece.text
  | cons y ys ih =>
      have hy := ih y
      rw [List.map_cons, List.map_cons (f := SetPiece.word), List.flatMap_cons,
        SetPiece.render_word]
      cases y.spaced with
      | false => exact .glued hy
      | true => exact .spaced hy

/-! ## A line of a source and what is written for it -/

/-- A line of a source and what is written for it. -/
structure WrittenLine where
  line : SourceLine
  text : List Char

/-- What is written is some tabs and the texts of the line's tokens; so it ends in a token's own
text. -/
structure WrittenLine.IsVerbatim (w : WrittenLine) : Prop where
  spaced : ∃ depth cs, SpacedTexts (w.line.tokens.map (·.value.text)) cs ∧
    w.text = List.replicate depth '\t' ++ cs
  ends : ∃ front t, w.line.tokens.getLast? = some t ∧ w.text = front ++ t.value.text

/-- What is written for a line and, in front of it, the end of the one above and an empty line if
the source has one or more there. -/
def WrittenLine.below (w : WrittenLine) : List Char :=
  (if w.line.blanks = 0 then ['\n'] else ['\n', '\n']) ++ w.text

/-- What is written for several lines; `closed` says that the last of them is ended. -/
def writtenPage (closed : Bool) : List WrittenLine → List Char
  | [] => []
  | w :: ws => w.text ++ ws.flatMap WrittenLine.below ++ if closed then ['\n'] else []

/-! ## From rows to what is written -/

/-- A row is written from the tokens of its line. -/
theorem SetFrom.spacedTexts {source : List Char} {l : SourceLine} {r : SetRow}
    (h : SetFrom source l r) (hs : r.pieces.head?.all (!·.spaced) = true) (hl : l.tokens ≠ []) :
    ∃ cs, SpacedTexts (l.tokens.map (·.value.text)) cs ∧
      r.pageRow.row.render = List.replicate r.depth '\t' ++ cs := by
  have htexts : r.pieces.map (·.piece.text) = l.tokens.map (·.value.text) := by
    have hmap := congrArg (List.map Piece.text) h.pieces
    rwa [List.map_map, List.map_map] at hmap
  cases hp : r.pieces with
  | nil =>
      rw [hp] at htexts
      exact absurd (List.map_eq_nil_iff.mp htexts.symm) hl
  | cons x xs =>
      have hx : x.spaced = false := by simpa [hp] using hs
      refine ⟨_, htexts ▸ hp ▸ spacedTexts_render x xs, ?_⟩
      simp [SetRow.pageRow, Row.render, hp, SetPiece.render_word, hx]

theorem SetFrom.isVerbatim {source : List Char} {l : SourceLine} {r : SetRow}
    (h : SetFrom source l r) (hs : r.pieces.head?.all (!·.spaced) = true) (hl : l.tokens ≠ []) :
    WrittenLine.IsVerbatim ⟨l, r.pageRow.row.render⟩ := by
  obtain ⟨cs, hcs, htext⟩ := h.spacedTexts hs hl
  obtain ⟨front, text, hlast, hends⟩ := hcs.last_eq
  rw [List.getLast?_map] at hlast
  obtain ⟨t, ht, rfl⟩ := Option.map_eq_some_iff.mp hlast
  refine ⟨⟨r.depth, cs, hcs, htext⟩, List.replicate r.depth '\t' ++ front, t, ht, ?_⟩
  show r.pageRow.row.render = _
  rw [htext, hends, List.append_assoc]

/-- Rows are written as the lines that they are set from. -/
theorem exists_writtenLines {source : List Char} {ls : List SourceLine} {rs : List SetRow}
    (h : List.Forall₂ (SetFrom source) ls rs) (hr : AllLaid rs) (hl : ∀ l ∈ ls, l.tokens ≠ []) :
    ∃ ws : List WrittenLine, ws.map (·.line) = ls ∧
      ws.map (·.text) = rs.map (·.pageRow.row.render) ∧ (∀ w ∈ ws, w.IsVerbatim) ∧
      ws.flatMap WrittenLine.below = renderBelow (rs.map SetRow.pageRow) ∧
      ∀ closed, writtenPage closed ws = renderPage closed (rs.map SetRow.pageRow) := by
  induction h with
  | nil => exact ⟨[], rfl, rfl, by simp, rfl, fun closed => rfl⟩
  | @cons l r ls rs hset _ ih =>
      obtain ⟨⟨_, hs⟩, hrs⟩ := List.forall_mem_cons.mp hr
      obtain ⟨hl, hls⟩ := List.forall_mem_cons.mp hl
      obtain ⟨ws, hlines, htexts, hverbatim, hbelow, _⟩ := ih hrs hls
      have hfirst : WrittenLine.below ⟨l, r.pageRow.row.render⟩ =
          (if r.apart then ['\n', '\n'] else ['\n']) ++ r.pageRow.row.render := by
        rw [WrittenLine.below, hset.apart]
        by_cases hb : l.blanks = 0
        · simp [hb]
        · simp [hb, Nat.pos_of_ne_zero hb]
      refine ⟨⟨l, r.pageRow.row.render⟩ :: ws, ?_, ?_, ?_, ?_, fun closed => ?_⟩
      · rw [List.map_cons, hlines]
      · rw [List.map_cons, htexts, List.map_cons]
      · exact List.forall_mem_cons.mpr ⟨hset.isVerbatim hs hl, hverbatim⟩
      · rw [List.flatMap_cons, hbelow, hfirst]
        rfl
      · rw [writtenPage, hbelow]
        rfl

/-! ## The ends of what is written -/

/-- What is written for a line neither begins nor ends with a line feed. -/
structure WrittenLine.IsFirm (w : WrittenLine) : Prop where
  first : ∃ c tail, w.text = c :: tail ∧ c ≠ '\n'
  last : ∃ front c, w.text = front ++ [c] ∧ c ≠ '\n'

/-- A line begins with a tab or with its first token, and ends in its last. -/
theorem WrittenLine.IsVerbatim.isFirm {w : WrittenLine} (h : w.IsVerbatim)
    (hread : ∀ t ∈ w.line.tokens, t.value.kind ≠ .newline ∧ Spells t.value.kind t.value.text) :
    w.IsFirm where
  first := by
    obtain ⟨depth, cs, hcs, htext⟩ := h.spaced
    cases hts : w.line.tokens with
    | nil =>
        rw [hts] at hcs
        cases hcs
    | cons t ts =>
        rw [hts, List.map_cons] at hcs
        obtain ⟨more, rfl⟩ := hcs.head_eq
        obtain ⟨hk, hspells⟩ := hread t (hts ▸ List.mem_cons_self)
        obtain ⟨c, tail, ht, _, hc⟩ := hspells.head_eq hk
        rw [htext, ht]
        cases depth with
        | zero =>
            refine ⟨c, tail ++ more, rfl, ?_⟩
            rintro rfl
            cases hc
        | succ depth => exact ⟨'\t', _, rfl, by decide⟩
  last := by
    obtain ⟨front, t, hlast, htext⟩ := h.ends
    obtain ⟨hk, hspells⟩ := hread t (List.mem_of_getLast? hlast)
    obtain ⟨c, hc, hne, _⟩ := hspells.last_eq hk
    obtain ⟨body, hbody⟩ := List.getLast?_eq_some_iff.mp hc
    refine ⟨front ++ body, c, by rw [htext, hbody, List.append_assoc], ?_⟩
    rintro rfl
    cases hne

section
variable {closed : Bool} {ws : List WrittenLine} (h : ∀ w ∈ ws, w.IsFirm)
include h

theorem writtenPage_head_ne : (writtenPage closed ws).head? ≠ some '\n' := by
  cases ws with
  | nil => exact fun hhead => by cases hhead
  | cons w ws =>
      obtain ⟨c, tail, htext, hc⟩ := (h w List.mem_cons_self).first
      rw [writtenPage, htext]
      intro hhead
      exact hc (Option.some.inj hhead)

/-- Up to the end of its last line, a page ends in no line feed. -/
theorem exists_last_of_writtenPage (closed : Bool) (hne : ws ≠ []) : ∃ front c, c ≠ '\n' ∧
    writtenPage closed ws = front ++ c :: if closed then ['\n'] else [] := by
  obtain ⟨w, ws, rfl⟩ := List.exists_cons_of_ne_nil hne
  rcases List.eq_nil_or_concat ws with rfl | ⟨lines, l, rfl⟩
  · obtain ⟨front, c, htext, hc⟩ := (h w List.mem_cons_self).last
    refine ⟨front, c, hc, ?_⟩
    simp [writtenPage, htext]
  · obtain ⟨front, c, htext, hc⟩ := (h l (by simp)).last
    refine ⟨w.text ++ lines.flatMap WrittenLine.below ++
      (if l.line.blanks = 0 then ['\n'] else ['\n', '\n']) ++ front, c, hc, ?_⟩
    simp [writtenPage, WrittenLine.below, htext]

theorem writtenPage_getLast?_iff :
    (writtenPage closed ws).getLast? = some '\n' ↔ closed = true ∧ ws ≠ [] := by
  by_cases hne : ws = []
  · rw [hne]
    simp [writtenPage]
  · obtain ⟨front, c, hc, hpage⟩ := exists_last_of_writtenPage h closed hne
    rw [hpage]
    cases closed <;> simp [hc, hne]

theorem writtenPage_bottom : ¬ ['\n', '\n'] <:+ writtenPage closed ws := by
  by_cases hne : ws = []
  · rw [hne]
    simp [writtenPage]
  · obtain ⟨front, c, hc, hpage⟩ := exists_last_of_writtenPage h closed hne
    rw [hpage, ← List.reverse_prefix]
    cases closed <;> simp [hc.symm]

end

/-! ## Whole sources -/

/-- What the tokens of a source and what is written for them have to do with each other. -/
structure OnlyLayoutChanged (ts : List (Located RawToken)) (out : List Char) : Prop where
  lines : ∃ ws : List WrittenLine, ws.map (·.line) = sourceLines ts ∧ (∀ w ∈ ws, w.IsVerbatim) ∧
    out = writtenPage (ts.any (·.value.kind == .newline)) ws
  top : out.head? ≠ some '\n'
  bottom : ¬ ['\n', '\n'] <:+ out
  ended : out.getLast? = some '\n' ↔
    (∃ t ∈ ts, t.value.kind = .newline) ∧ ∃ t ∈ ts, t.value.kind ≠ .newline

theorem sourceLines_eq_nil_iff {ts : List (Located RawToken)} :
    sourceLines ts = [] ↔ ∀ t ∈ ts, t.value.kind = .newline := by
  have htokens := sourceLines_flatMap_tokens ts
  constructor
  · intro h
    rw [h, List.flatMap_nil, eq_comm, List.filter_eq_nil_iff] at htokens
    simpa using htokens
  · intro h
    rw [List.filter_eq_nil_iff.mpr (by simpa using h), List.flatMap_eq_nil_iff] at htokens
    refine List.eq_nil_iff_forall_not_mem.mpr fun l hl => ?_
    exact SourceLine.tokens_ne_nil l hl (htokens l hl)

/-- The tokens of a line are written as tokens of their kind. -/
theorem spells_of_sourceLines {source : String} {ts : List (Located RawToken)} {l : SourceLine}
    (h : rawTokens source = .ok ts) (hl : l ∈ sourceLines ts) :
    ∀ t ∈ l.tokens, t.value.kind ≠ .newline ∧ Spells t.value.kind t.value.text := by
  intro t ht
  have hmem : t ∈ (sourceLines ts).flatMap (·.tokens) := List.mem_flatMap.mpr ⟨l, hl, ht⟩
  rw [sourceLines_flatMap_tokens, List.mem_filter] at hmem
  exact ⟨by simpa using hmem.2, spells_of_rawTokens h t hmem.1⟩

/-- The rows of a source are set from its lines. -/
theorem setFrom_of_rawTokens {source : String} {ts : List (Located RawToken)}
    (h : rawTokens source = .ok ts) :
    List.Forall₂ (SetFrom source.toList) (sourceLines ts) (setRowsOf source) := by
  rw [setRowsOf_eq h]
  exact setSourceLines_forall₂ _ _ _

/-- The rows of a source are written from its lines, and none of them begins or ends with a line
feed. -/
theorem exists_firm_page {source : String} {ts : List (Located RawToken)}
    (h : rawTokens source = .ok ts) : ∃ ws : List WrittenLine, ws.map (·.line) = sourceLines ts ∧
      (∀ w ∈ ws, w.IsVerbatim) ∧ (∀ w ∈ ws, w.IsFirm) ∧
      ∀ closed, renderPage closed (rowsOf source) = writtenPage closed ws := by
  obtain ⟨ws, hlines, _, hverbatim, _, hpage⟩ :=
    exists_writtenLines (setFrom_of_rawTokens h) (setRowsOf_laid source) SourceLine.tokens_ne_nil
  refine ⟨ws, hlines, hverbatim, fun w hw => (hverbatim w hw).isFirm ?_, ?_⟩
  · exact spells_of_sourceLines h (hlines ▸ List.mem_map_of_mem hw)
  · intro closed
    rw [rowsOf_eq, hpage]

/-- **The layout touches nothing but the layout.**  If bytes are laid out they are a text, and
what is written is one output line for every line of the text that holds a token: some tabs and
the tokens of that line, word for word, with one space or nothing between neighbours.  One empty
line stands between two output lines exactly if the text has one or more there, none stands at the
top or at the bottom, and the last output line is ended exactly if the text has a line break and
any other token. -/
theorem reformatBytes_verbatim {bytes : ByteArray} {out : String}
    (h : reformatBytes bytes = .ok out) : ∃ source ts, String.fromUTF8? bytes = some source ∧
      rawTokens source = .ok ts ∧ OnlyLayoutChanged ts out.toList := by
  cases hb : String.fromUTF8? bytes with
  | none =>
      rw [reformatBytes_of_no_text hb] at h
      cases h
  | some source =>
      rw [reformatBytes_of_text hb] at h
      obtain ⟨ts, hts⟩ := rawTokens_of_reformat h
      refine ⟨source, ts, rfl, hts, ?_⟩
      obtain ⟨ws, hlines, hverbatim, hfirm, hpage⟩ := exists_firm_page hts
      have hout : out.toList = writtenPage (ts.any (·.value.kind == .newline)) ws := by
        rw [toList_eq_renderPage h, any_newline_piecesOf hts, hpage]
      have hany : ts.any (·.value.kind == .newline) = true ↔ ∃ t ∈ ts, t.value.kind = .newline := by
        simp
      have hnonempty : ws ≠ [] ↔ ∃ t ∈ ts, t.value.kind ≠ .newline := by
        rw [← not_iff_not, not_not, ← List.map_eq_nil_iff (f := (·.line)), hlines,
          sourceLines_eq_nil_iff]
        simp
      refine ⟨⟨ws, hlines, hverbatim, hout⟩, ?_, ?_, ?_⟩
      · rw [hout]
        exact writtenPage_head_ne hfirm
      · rw [hout]
        exact writtenPage_bottom hfirm
      · rw [hout, writtenPage_getLast?_iff hfirm, hany, hnonempty]

/-- Two lines, empty lines around them and between them, and a comment that goes over two lines. -/
theorem reformatBytes_verbatim_comment :
    reformatBytes "\n\ta:=1\r\n\n\nb  /* x\n y */".toUTF8 = .ok "a := 1\n\nb /* x\n y */\n" ∧
      ∃ source ts, String.fromUTF8? "\n\ta:=1\r\n\n\nb  /* x\n y */".toUTF8 = some source ∧
        rawTokens source = .ok ts ∧ OnlyLayoutChanged ts "a := 1\n\nb /* x\n y */\n".toList := by
  have h : reformatBytes "\n\ta:=1\r\n\n\nb  /* x\n y */".toUTF8 =
      .ok "a := 1\n\nb /* x\n y */\n" := by
    rw [reformatBytes_toUTF8]
    decide
  exact ⟨h, reformatBytes_verbatim h⟩

end MethodSkeleton
