/-
# `MethodSkeleton.Proofs.Layout.FixedPoint` — laying out what is laid out

Laid-out text is laid out as it is, provided that its tokens are those that were written
(`reformatBytes_fixed_point`).  The page is then read back lexeme by lexeme, so the lines of
the second run are known: they are the rows of the page (`lines_pageLexemes`), with a line of
no tokens wherever a blank line was written.  Each of them is arranged as before, and what it
leaves open for the next one is the same; blank lines are taken to where they are.
-/
import MethodSkeleton.Proofs.Layout.Respacing
import MethodSkeleton.Proofs.Layout.Tokens

namespace MethodSkeleton

/-! ## The tokens of a row, read again -/

theorem setsOff_of_not_blank {c : Option Char} (h : c.any isBlank = false) :
    Piece.setsOff c = false := by
  cases c with
  | none => rfl
  | some c =>
      have hc : isBlank c = false := h
      simp only [isBlank, Bool.or_eq_false_iff] at hc
      simp [Piece.setsOff, hc]

/-- A token and the blank in front of it. -/
theorem Piece.ofLexemes_lexemes (before : Option Char) (x : SetPiece) (rest : List Lexeme) :
    ofLexemes before (x.lexemes ++ rest) =
      x.piece.respaced (x.spaced || setsOff before) (endsAt (firstChar? rest)) ::
        ofLexemes x.piece.text.getLast? rest := by
  cases hs : x.spaced with
  | true =>
      rw [SetPiece.lexemes, if_pos hs]
      rfl
  | false =>
      rw [SetPiece.lexemes, if_neg (by simp [hs])]
      rfl

/-- A text that goes on with the end of a line, or not at all. -/
def BehindRow (after : List Lexeme) : Prop := after = [] ∨ ∃ rest, after = lineFeed :: rest

theorem Laid.endsAt_eq {xs : List SetPiece} {after : List Lexeme} (h : Laid xs)
    (ha : BehindRow after) :
    Piece.endsAt (Piece.firstChar? (xs.flatMap SetPiece.lexemes ++ after)) =
      xs.head?.all (·.spaced) := by
  cases xs with
  | nil =>
      rcases ha with rfl | ⟨rest, rfl⟩
      · rfl
      · rfl
  | cons x xs =>
      rw [List.flatMap_cons, List.append_assoc, SetPiece.lexemes]
      cases hs : x.spaced with
      | true =>
          rw [if_pos rfl]
          exact hs.symm
      | false =>
          obtain ⟨c, tail, ht, hb, hl⟩ := h.legible.isToken.spells.head_eq h.legible.isToken.visible
          rw [if_neg (by simp), List.singleton_append, Piece.firstChar?, List.head?_cons,
            Option.bind_some, SetPiece.lexeme, ht]
          simp [Piece.endsAt, hb, hl, hs]

/-- A row is read again as the same tokens with the spaces that were written. -/
theorem Laid.ofLexemes_eq {xs : List SetPiece} {after : List Lexeme} (h : Laid xs)
    (ha : BehindRow after) (before : Option Char) : ∃ before',
      Piece.ofLexemes before (xs.flatMap SetPiece.lexemes ++ after) =
        reread (xs.head?.any (·.spaced) || Piece.setsOff before) xs ++
          Piece.ofLexemes before' after := by
  induction xs generalizing before with
  | nil => exact ⟨before, rfl⟩
  | cons x xs ih =>
      obtain ⟨before', ih⟩ := ih h.tail x.piece.text.getLast?
      refine ⟨before', ?_⟩
      rw [List.flatMap_cons, List.append_assoc, Piece.ofLexemes_lexemes, h.tail.endsAt_eq ha, ih]
      show _ = x.piece.respaced (x.spaced || _) _ :: (reread (xs.head?.all (·.spaced)) xs ++ _)
      cases xs with
      | nil => rfl
      | cons y ys =>
          -- a token with another behind it is no line comment, so it does not end in a blank
          have hlast : Piece.setsOff x.piece.text.getLast? = false := by
            cases h.legible with
            | cons hread hne _ =>
                obtain ⟨c, hc, _, hb⟩ := hread.spells.last_eq hread.visible
                rw [hc]
                exact setsOff_of_not_blank (hb hne)
          rw [hlast, Bool.or_false]
          rfl

/-! ## The lines of a page -/

/-- The line that a row is read as. -/
def SetRow.line (r : SetRow) : List Piece := reread (decide (r.depth ≠ 0)) r.pieces

/-- The lines behind that of a row: those of the rows below, one of no tokens for each blank
line, and one behind the last line feed. -/
def belowLines (closed : Bool) : List SetRow → List (List Piece)
  | [] => if closed then [[]] else []
  | r :: rows => (if r.apart then [[]] else []) ++ r.line :: belowLines closed rows

def pageLines (closed : Bool) : List SetRow → List (List Piece)
  | [] => [[]]
  | r :: rows => r.line :: belowLines closed rows

theorem Piece.lines_append {ps qs line : List Piece} {rest : List (List Piece)}
    (h : ∀ p ∈ ps, p.kind ≠ .newline) (hq : lines qs = line :: rest) :
    lines (ps ++ qs) = (ps ++ line) :: rest := by
  induction ps with
  | nil => exact hq
  | cons p ps ih =>
      obtain ⟨hp, hps⟩ := List.forall_mem_cons.mp h
      obtain ⟨line', rest', hl, hcons⟩ := lines_cons_of_visible hp (ps ++ qs)
      rw [ih hps] at hl
      cases hl
      rw [List.cons_append, hcons]
      rfl

theorem reread_visible {before : Bool} {xs : List SetPiece} (h : Laid xs) :
    ∀ p ∈ reread before xs, p.kind ≠ .newline := by
  have hkinds : (reread before xs).map (·.kind) = (xs.map (·.piece)).map (·.kind) := by
    have htokens := congrArg (List.map RawToken.kind) (reread_map_token before xs)
    rwa [List.map_map, List.map_map] at htokens
  intro p hp
  have hmem := @List.mem_map_of_mem _ _ _ _ (·.kind) hp
  rw [hkinds] at hmem
  obtain ⟨q, hq, hk⟩ := List.mem_map.mp hmem
  rw [← hk]
  exact (h.legible.forall_isToken q hq).visible

theorem lines_row {r : SetRow} {after : List Lexeme} {before : Option Char}
    {rest : List (List Piece)} (h : Laid r.pieces)
    (hs : r.pieces.head?.all (!·.spaced) = true) (ha : BehindRow after)
    (hb : Piece.setsOff before = false)
    (hrest : ∀ before, Piece.lines (Piece.ofLexemes before after) = [] :: rest) :
    Piece.lines (Piece.ofLexemes before (r.lexemes ++ after)) = r.line :: rest := by
  have hhead : r.pieces.head?.any (·.spaced) = false := by
    cases hp : r.pieces.head? with
    | none => rfl
    | some x =>
        rw [hp] at hs
        simpa using hs
  have hindent : ∃ before', Piece.setsOff before' = decide (r.depth ≠ 0) ∧
      Piece.ofLexemes before (r.lexemes ++ after) =
        Piece.ofLexemes before' (r.pieces.flatMap SetPiece.lexemes ++ after) := by
    rw [SetRow.lexemes, List.append_assoc, indentLexemes]
    split
    · rename_i hd
      exact ⟨before, by rw [hb, hd]; rfl, rfl⟩
    · rename_i hd
      refine ⟨some '\t', by simp [Piece.setsOff, hd], ?_⟩
      show Piece.ofLexemes (List.replicate r.depth '\t').getLast? _ = _
      rw [List.getLast?_replicate, if_neg hd]
      rfl
  obtain ⟨before', hset, hindent⟩ := hindent
  obtain ⟨before'', hpieces⟩ := h.ofLexemes_eq ha before'
  rw [hindent, hpieces, hhead, Bool.false_or, hset,
    Piece.lines_append (reread_visible h) (hrest before''), List.append_nil]
  rfl

theorem behindRow_belowLexemes (closed : Bool) (rows : List SetRow) :
    BehindRow (belowLexemes closed rows) := by
  cases rows with
  | nil =>
      cases closed with
      | false => exact .inl rfl
      | true => exact .inr ⟨[], rfl⟩
  | cons r rows =>
      refine .inr ?_
      rw [belowLexemes]
      split
      · exact ⟨_, rfl⟩
      · exact ⟨_, rfl⟩

theorem lines_belowLexemes {closed : Bool} {rows : List SetRow} (h : AllLaid rows)
    (before : Option Char) : Piece.lines (Piece.ofLexemes before (belowLexemes closed rows)) =
      [] :: belowLines closed rows := by
  induction rows generalizing before with
  | nil => cases closed <;> rfl
  | cons r rows ih =>
      obtain ⟨⟨hr, hs⟩, hrows⟩ := List.forall_mem_cons.mp h
      have hrow : Piece.lines
          (Piece.ofLexemes (some '\n') (r.lexemes ++ belowLexemes closed rows)) =
            r.line :: belowLines closed rows :=
        lines_row hr hs (behindRow_belowLexemes closed rows) rfl (ih hrows)
      rw [belowLexemes, belowLines]
      split
      · show [] :: [] ::
          Piece.lines (Piece.ofLexemes (some '\n') (r.lexemes ++ belowLexemes closed rows)) = _
        rw [hrow]
        rfl
      · show [] ::
          Piece.lines (Piece.ofLexemes (some '\n') (r.lexemes ++ belowLexemes closed rows)) = _
        rw [hrow]
        rfl

theorem lines_pageLexemes {closed : Bool} {rows : List SetRow} (h : AllLaid rows) :
    Piece.lines (Piece.ofLexemes none (pageLexemes closed rows)) = pageLines closed rows := by
  cases rows with
  | nil => rfl
  | cons r rows =>
      obtain ⟨⟨hr, hs⟩, hrows⟩ := List.forall_mem_cons.mp h
      exact lines_row hr hs (behindRow_belowLexemes closed rows) rfl (lines_belowLexemes hrows)

/-! ## The page, arranged again -/

theorem arrangeRow_brackets {openings : List Opening} {line : List Piece} {kinds : List Kind}
    (h : Balances (openings.map (·.role.bracket)) (line.map (·.kind) ++ kinds)) :
    Balances ((arrangeRow openings line).2.map (·.role.bracket)) kinds := by
  have hbehind : Balances (arrangeWords (.ofLine line) ⟨openings, []⟩ none line).2.brackets kinds :=
    Balances.arrangeWords h
  rw [← Openings.brackets_endLine] at hbehind
  exact hbehind

/-- The rows of a page; that a blank line comes before the first is left to `apart`. -/
def headApart (apart : Bool) : List PageRow → List PageRow
  | [] => []
  | r :: rows => { r with apart := apart } :: rows

theorem arrangeLines_belowLines {closed : Bool} {openings : List Opening} {rows : List SetRow}
    (h : ∀ again, arrangeLines openings again (pageLines closed rows) =
      headApart again (rows.map SetRow.pageRow)) :
    arrangeLines openings false (belowLines closed rows) = rows.map SetRow.pageRow := by
  cases rows with
  | nil => cases closed <;> rfl
  | cons r rows =>
      have hblank : arrangeLines openings false (belowLines closed (r :: rows)) =
          arrangeLines openings r.apart (pageLines closed (r :: rows)) := by
        rw [belowLines, pageLines]
        cases r.apart <;> rfl
      rw [hblank, h]
      rfl

/-- The lines of a page are arranged as the page. -/
theorem arrangeLines_pageLines {closed : Bool} {lines : List (List Piece)} :
    ∀ {openings : List Opening} {apart : Bool},
      Balances (openings.map (·.role.bracket)) (lines.flatten.map (·.kind)) → ∀ again,
        arrangeLines openings again (pageLines closed (setRows openings apart lines)) =
          headApart again ((setRows openings apart lines).map SetRow.pageRow) := by
  induction lines with
  | nil =>
      intro openings apart _ again
      rfl
  | cons line lines ih =>
      intro openings apart h again
      cases line with
      | nil => exact ih h again
      | cons p line =>
          rw [List.flatten_cons, List.map_append] at h
          let row := reread (decide (rowDepth openings (p :: line) ≠ 0))
            (setLine openings (p :: line))
          let behind := (arrangeRow openings (p :: line)).2
          have hrow : arrangeRow openings row = arrangeRow openings (p :: line) :=
            arrangeRow_reread h _
          have hbelow : arrangeLines behind false
              (belowLines closed (setRows behind false lines)) = _ :=
            arrangeLines_belowLines (ih (arrangeRow_brackets h))
          show ⟨again, (arrangeRow openings row).1⟩ ::
            arrangeLines (arrangeRow openings row).2 false
              (belowLines closed (setRows behind false lines)) = _
          rw [hrow, hbelow, setRows, List.map_cons, headApart, pageRow_setLine]

/-! ## Whole sources, again -/

/-- There is a line break exactly if there is more than one line. -/
theorem Piece.any_newline (ps : List Piece) :
    ps.any (·.kind == .newline) = decide (1 < (lines ps).length) := by
  induction ps with
  | nil => rfl
  | cons p ps ih =>
      by_cases hk : p.kind = .newline
      · rw [lines_cons_of_newline hk]
        simp [hk, List.length_pos_iff, lines_ne_nil]
      · obtain ⟨line, rest, hl, hcons⟩ := lines_cons_of_visible hk ps
        have hne : (p.kind == .newline) = false := by simpa using hk
        rw [List.any_cons, hne, Bool.false_or, ih, hl, hcons]
        rfl

theorem setRows_length_le (openings : List Opening) (apart : Bool) (lines : List (List Piece)) :
    (setRows openings apart lines).length ≤ lines.length := by
  induction lines generalizing openings apart with
  | nil => exact Nat.le_refl _
  | cons line lines ih =>
      cases line with
      | nil => exact Nat.le_succ_of_le (ih openings true)
      | cons p line => exact Nat.succ_le_succ (ih _ false)

/-- What is wrong with the delimiters does not depend on where they stand. -/
theorem nestingFault?_cause_congr {opened opened' : List (Located Bracket)} {last : Option Kind}
    {ts ts' : List (Located Kind)} (ho : opened'.map (·.value) = opened.map (·.value))
    (ht : ts'.map (·.value) = ts.map (·.value)) :
    (nestingFault? opened' last ts').map (·.cause) =
      (nestingFault? opened last ts).map (·.cause) := by
  induction ts generalizing opened opened' last ts' with
  | nil =>
      rw [List.map_nil, List.map_eq_nil_iff] at ht
      subst ht
      cases opened with
      | nil =>
          rw [List.map_nil, List.map_eq_nil_iff] at ho
          rw [ho]
      | cons o outer =>
          obtain ⟨o', outer', rfl, hoval, _⟩ := List.map_eq_cons_iff.mp ho
          simp only [nestingFault?, Option.map_some, hoval]
  | cons t ts ih =>
      obtain ⟨t', us, rfl, hval, hus⟩ := List.map_eq_cons_iff.mp ht
      by_cases hc : t.value = .comma ∧ lacksElement last = true
      · simp only [nestingFault?, hval, if_pos hc, Option.map_some]
      · simp only [nestingFault?, hval, if_neg hc]
        cases hop : t.value.opens? with
        | some b =>
            have hopened : (Located.mk t'.span b :: opened').map (·.value) =
                (Located.mk t.span b :: opened).map (·.value) := congrArg (b :: ·) ho
            exact ih hopened hus
        | none =>
            cases hcl : t.value.closes? with
            | none => exact ih ho hus
            | some b =>
                cases opened with
                | nil =>
                    rw [List.map_nil, List.map_eq_nil_iff] at ho
                    rw [ho]
                    rfl
                | cons o outer =>
                    obtain ⟨o', outer', rfl, hoval, houter⟩ := List.map_eq_cons_iff.mp ho
                    simp only [hoval]
                    split
                    · exact ih houter hus
                    · rfl

/-- So whether they nest does not either. -/
theorem nestingFault?_none_congr {opened opened' : List (Located Bracket)} {last : Option Kind}
    {ts ts' : List (Located Kind)} (ho : opened'.map (·.value) = opened.map (·.value))
    (ht : ts'.map (·.value) = ts.map (·.value)) (h : nestingFault? opened last ts = none) :
    nestingFault? opened' last ts' = none := by
  have hcause := @nestingFault?_cause_congr _ _ last _ _ ho ht
  rwa [h, Option.map_none, Option.map_eq_none_iff] at hcause

theorem significant_map_value (ts : List (Located RawToken)) :
    (significant ts).map (·.value) =
      ((visibleTokens ts).map (·.kind)).filter (fun kind => !kind.isComment) := by
  induction ts with
  | nil => rfl
  | cons t ts ih =>
      have hcons : visibleTokens (t :: ts) =
          if t.value.isVisible then t.value :: visibleTokens ts else visibleTokens ts :=
        List.filter_cons
      rw [significant_cons, hcons, RawToken.isVisible]
      by_cases hn : t.value.kind = .newline
      · simp [hn, ih]
      · cases hc : t.value.kind.isComment <;> simp [hn, hc, ih]

theorem nestingFault?_of_reformat {source out : String} {ts : List (Located RawToken)}
    (h : reformat source = .ok out) (hts : rawTokens source = .ok ts) :
    nestingFault? [] none (significant ts) = none := by
  have hfault := (reformat_ok_iff.mp h).1
  rw [layoutFault?_eq, hts] at hfault
  exact hfault

theorem openAfter?_of_reformat {source out : String} {ts : List (Located RawToken)}
    (h : reformat source = .ok out) (hts : rawTokens source = .ok ts) :
    openAfter? [] (significant ts) = some [] := by
  have hnest := nestingFault?_of_reformat h hts
  exact openAfter?_eq_some_iff.mpr (behind_nil.nestingFault?_eq_none_iff.mp hnest).2

/-- The tokens that the delimiter rules look at are those of the lines, comments apart. -/
theorem significant_eq_lines {source : String} {ts : List (Located RawToken)}
    (h : rawTokens source = .ok ts) : (significant ts).map (·.value) =
      ((Piece.lines (piecesOf source)).flatten.map (·.kind)).filter
        (fun kind => !kind.isComment) := by
  obtain ⟨_, hvis⟩ := rawTokens_visible_iff.mp ⟨ts, h, rfl⟩
  rw [significant_map_value, ← hvis, ← Piece.visible_ofLexemes none, List.map_map,
    Piece.flatten_lines]
  rfl

/-- The delimiters of a source that is laid out nest, line by line. -/
theorem balances_of_reformat {source out : String} (h : reformat source = .ok out) :
    Balances [] ((Piece.lines (piecesOf source)).flatten.map (·.kind)) := by
  obtain ⟨ts, hts⟩ := rawTokens_of_reformat h
  exact ⟨[], significant ts, [], rfl, significant_eq_lines hts, openAfter?_of_reformat h hts⟩

/-- The page of a source whose last row is closed exactly if the source has a line break, and
then there is a line behind it. -/
theorem any_newline_pageLines {source : String} {r : SetRow} {rows : List SetRow}
    (h : setRowsOf source = r :: rows) :
    decide (1 < (pageLines ((piecesOf source).any (·.kind == .newline)) (r :: rows)).length) =
      (piecesOf source).any (·.kind == .newline) := by
  cases hc : (piecesOf source).any (·.kind == .newline) with
  | true =>
      have hpos : 0 < (belowLines true rows).length := by
        cases rows with
        | nil => simp [belowLines]
        | cons r' rows =>
            simp only [belowLines, List.length_append, List.length_cons]
            omega
      simpa [pageLines] using hpos
  | false =>
      rw [Piece.any_newline, decide_eq_false_iff_not] at hc
      have hle : (setRowsOf source).length ≤ (Piece.lines (piecesOf source)).length :=
        setRows_length_le _ _ _
      rw [h, List.length_cons] at hle
      have hrows : rows = [] := List.eq_nil_of_length_eq_zero (by omega)
      rw [hrows]
      rfl

theorem renderPage_headApart (closed apart : Bool) (rows : List PageRow) :
    renderPage closed (headApart apart rows) = renderPage closed rows := by
  cases rows <;> rfl

/-- **Laid-out text is a fixed point.**  If bytes are laid out, and scanning what was written
gives back the tokens of their text, then what was written is laid out as it is. -/
theorem reformatBytes_fixed_point {bytes : ByteArray} {source out : String}
    (hb : String.fromUTF8? bytes = some source) (h : reformatBytes bytes = .ok out)
    (hsame : SameTokens source out) : reformatBytes out.toUTF8 = .ok out := by
  rw [reformatBytes_of_text hb] at h
  rw [reformatBytes_toUTF8, reformat_ok_iff]
  have hlexemes : lexemes out.toList = pageOf source := by
    rw [toList_of_reformat h]
    exact (sameTokens_iff_readsBack h).mp hsame
  constructor
  · obtain ⟨ts, us, hts, hus, hvis⟩ := hsame
    rw [layoutFault?_eq, hus]
    refine nestingFault?_none_congr rfl ?_ (nestingFault?_of_reformat h hts)
    rw [significant_map_value, significant_map_value, hvis]
  · have hagain : layout (Piece.ofLexemes none (pageOf source)) = out.toList := by
      have hlines := @lines_pageLexemes ((piecesOf source).any (·.kind == .newline)) _
        (setRowsOf_laid source)
      have hnest : Balances (([] : List Opening).map (·.role.bracket))
          ((Piece.lines (piecesOf source)).flatten.map (·.kind)) := balances_of_reformat h
      rw [layout, Piece.any_newline, pageOf, hlines, setRowsOf, arrangeLines_pageLines hnest,
        renderPage_headApart, ← setRowsOf, toList_of_reformat h, pageOf, spell_pageLexemes]
      cases hrows : setRowsOf source with
      | nil => rfl
      | cons r rows => rw [any_newline_pageLines hrows]
    rw [hlexemes, hagain, String.ofList_toList]

/-- The minus is taken for a binary operator at first and for a unary one the second time. -/
theorem reformatBytes_fixed_point_minus : reformatBytes "f(a-)".toUTF8 = .ok "f(a -)" ∧
    SameTokens "f(a-)" "f(a -)" ∧ reformatBytes "f(a -)".toUTF8 = .ok "f(a -)" := by
  have h : reformatBytes "f(a-)".toUTF8 = .ok "f(a -)" := by
    rw [reformatBytes_toUTF8]
    decide
  have hsame : SameTokens "f(a-)" "f(a -)" := sameTokens_of_eq rfl rfl
  exact ⟨h, hsame, reformatBytes_fixed_point (fromUTF8?_toUTF8 _) h hsame⟩

end MethodSkeleton
