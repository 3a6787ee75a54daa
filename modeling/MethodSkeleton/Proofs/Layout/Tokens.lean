/-
# `MethodSkeleton.Proofs.Layout.Tokens` — when the layout keeps the tokens

The layout writes the tokens of a source in their order and changes none of their texts.  That
the page has the same tokens when it is scanned again does not follow: two that stood apart
may be written next to each other and read as one.  `reformatBytes_keeps_tokens_iff` says
exactly when: no token on a row may fuse with what is written behind it on that row.

Rows do not disturb each other, since no spelling reaches over a line feed.  Inside a row a
word, a number or a slash is only ever joined by a bracket, a comma or the like
(`tight_of_glued`), so only fixed spellings and points behind numbers are left to fuse.
-/
import MethodSkeleton.Proofs.Layout.Setting
import MethodSkeleton.Proofs.Layout.Verdict
import MethodSkeleton.Proofs.Source.LineBreak
import MethodSkeleton.Proofs.Text.Bytes

namespace MethodSkeleton

/-! ## What is written without a space -/

/-- The tokens that may be written right behind a word, a number or an operator. -/
def Kind.isTight (kind : Kind) : Bool :=
  kind.clingsLeft || kind == .ellipsis || kind.opens?.isSome || kind.closes?.isSome

theorem not_tight {kind : Kind} (h : kind.isTight = false) :
    kind.clingsLeft = false ∧ kind ≠ .ellipsis ∧ kind ≠ .leftParen ∧ kind ≠ .leftBracket ∧
      kind ≠ .leftBrace ∧ kind ≠ .rightBrace := by
  revert h
  cases kind <;> decide

theorem tight_of_glued {traits : LineTraits} {openings : Openings} {w : Written}
    {p : Piece} {next : Option Kind} (hk : w.kind ∈ [.identifier, .number, .operator])
    (hu : w.unary = false) (hc : w.closesType = false)
    (h : spaceBetween traits openings w p next = false) : p.kind.isTight = true := by
  by_contra ht
  obtain ⟨hl, he, hpar, hbra, hlb, hrb⟩ := not_tight (Bool.not_eq_true _ ▸ ht)
  have hr : w.kind.clingsRight = false ∧ w.kind ≠ .comma ∧ w.kind ≠ .semicolon ∧
      w.kind ≠ .colon ∧ w.kind ≠ .leftBrace := by
    revert hk
    cases w.kind <;> decide
  simp [spaceBetween, hl, he, hpar, hbra, hlb, hrb, hr, hu, hc] at h

/-- What is remembered of a word, a number or an operator never draws the next token near. -/
theorem writtenAs_plain (openings : Openings) (prev : Option Written) (p : Piece) (spaced : Bool)
    (hk : p.kind ∈ [.identifier, .number, .operator]) :
    (writtenAs openings prev p spaced).unary = false ∧
      (writtenAs openings prev p spaced).closesType = false := by
  have hkind : p.kind ≠ .bang ∧ p.kind.hasUnaryForm = false ∧ p.kind.closes? = none := by
    revert hk
    cases p.kind <;> decide
  simp [writtenAs, isUnary, hkind]

/-- The first character of a token that may be written right behind a word goes on with none. -/
theorem Piece.IsToken.shield {p : Piece} (h : p.IsToken) (ht : p.kind.isTight = true) :
    p.text.head?.any isShield = true := by
  have hfixed : p.kind.isFixed = true := by
    revert ht
    cases p.kind <;> decide
  have hall : (punctuation.all fun e => !e.2.isTight || e.1.head?.any isShield) = true := by decide
  have := List.all_eq_true.mp hall _ (h.spells.mem_punctuation hfixed)
  simpa [ht] using this

/-! ## Rows -/

theorem Legible.tail {p : Piece} {line : List Piece} (h : Legible (p :: line)) : Legible line := by
  cases h with
  | last => exact .nil
  | cons _ _ h => exact h

theorem Legible.isToken {p : Piece} {line : List Piece} (h : Legible (p :: line)) : p.IsToken := by
  cases h <;> assumption

/-- The tokens of a row as they are set: legible, and where a word, a number or an operator is
joined, by a token that may join it. -/
structure Laid (xs : List SetPiece) : Prop where
  legible : Legible (xs.map (·.piece))
  joined : xs.IsChain fun x y => x.piece.kind ∈ [.identifier, .number, .operator] →
    y.spaced = false → y.piece.kind.isTight = true

theorem setPieces_joined (traits : LineTraits) (openings : Openings) (prev : Option Written)
    (ps : List Piece) : (setPieces traits openings prev ps).IsChain fun x y =>
      x.piece.kind ∈ [.identifier, .number, .operator] → y.spaced = false →
        y.piece.kind.isTight = true := by
  induction ps generalizing openings prev with
  | nil => exact .nil
  | cons p ps ih =>
      cases ps with
      | nil => exact .singleton _
      | cons q ps =>
          refine .cons_cons ?_ (ih _ _)
          intro hk hs
          obtain ⟨hu, hc⟩ := writtenAs_plain openings prev p
            (spaceBefore traits openings prev p (some q.kind)) hk
          exact tight_of_glued hk hu hc hs

theorem setLine_laid {openings : List Opening} {line : List Piece} (h : Legible line) :
    Laid (setLine openings line) where
  legible := by rwa [setLine, setPieces_map_piece]
  joined := setPieces_joined _ _ _ _

theorem Laid.tail {x : SetPiece} {xs : List SetPiece} (h : Laid (x :: xs)) : Laid xs where
  legible := Legible.tail h.legible
  joined := by
    cases xs with
    | nil => exact .nil
    | cons y ys => exact (List.isChain_cons_cons.mp h.joined).2

/-- What is written behind a token of a row goes on with no word, number or comment. -/
theorem Laid.shielded {x : SetPiece} {xs : List SetPiece} {after : List Char}
    (h : Laid (x :: xs)) (ha : EndsLine after) :
    Shielded x.piece.kind ((xs.map SetPiece.word).flatMap Word.render ++ after) := by
  cases xs with
  | nil =>
      refine ⟨fun _ => ?_, fun _ => ?_⟩
      all_goals
        cases after with
        | nil => rfl
        | cons c after =>
            have hc : c = '\n' := by simpa [EndsLine] using ha
            rw [hc]
            rfl
  | cons y ys =>
      refine ⟨fun hk => ?_, fun hk => ?_⟩
      · -- nothing stands behind a line comment
        cases h.legible with
        | cons _ hne _ => exact absurd hk hne
      · have hy : y.piece.IsToken := h.tail.legible.isToken
        cases hs : y.spaced with
        | true =>
            rw [List.map_cons, List.flatMap_cons, SetPiece.render_word, if_pos hs]
            rfl
        | false =>
            have hshield := hy.shield (List.isChain_cons_cons.mp h.joined |>.1 hk hs)
            obtain ⟨c, hc, hcs⟩ := Option.any_eq_true _ _ |>.mp hshield
            obtain ⟨tail, ht⟩ := List.head?_eq_some_iff.mp hc
            simpa [SetPiece.render_word, hs, ht] using hcs

theorem Piece.IsToken.not_blank {p : Piece} (h : p.IsToken) {after : List Lexeme} :
    (Lexeme.spell (⟨.token p.kind, p.text⟩ :: after)).head?.any isBlank = false := by
  obtain ⟨c, tail, ht, hb, _⟩ := h.spells.head_eq h.visible
  rw [spell_cons, ht]
  exact hb

/-- No word of the row fuses with what is written behind it. -/
def NothingFuses (words : List Word) : Prop :=
  ∀ w after, w :: after <:+ words → ¬ Fuses w.text (after.flatMap Word.render)

theorem nothingFuses_nil : NothingFuses [] := by
  intro w after h
  cases List.suffix_nil.mp h

theorem nothingFuses_cons_iff {w : Word} {words : List Word} : NothingFuses (w :: words) ↔
    ¬ Fuses w.text (words.flatMap Word.render) ∧ NothingFuses words := by
  simp only [NothingFuses, List.suffix_cons_iff]
  constructor
  · intro h
    exact ⟨h w words (.inl rfl), fun v after hv => h v after (.inr hv)⟩
  · rintro ⟨hw, hwords⟩ v after (hv | hv)
    · cases hv
      exact hw
    · exact hwords v after hv

/-- A token of a row stands before what is written behind it exactly if it does not fuse with what
is behind it on the row. -/
theorem Laid.standsBefore_iff {x : SetPiece} {xs : List SetPiece} (h : Laid (x :: xs))
    {after : List Lexeme} (ha : EndsLine (Lexeme.spell after)) :
    StandsBefore x.lexeme (Lexeme.spell (xs.flatMap SetPiece.lexemes ++ after)) ↔
      ¬ Fuses x.piece.text ((xs.map SetPiece.word).flatMap Word.render) := by
  have hread := h.legible.isToken
  rw [spell_append, spell_pieces, ← fuses_append_iff ha]
  exact hread.spells.standsBefore_iff hread.visible (h.shielded ha)

/-- A row is read back exactly if nothing on it fuses. -/
theorem Laid.readsBack_iff {xs : List SetPiece} (h : Laid xs) {after : List Lexeme}
    (ha : EndsLine (Lexeme.spell after)) : ReadsBack (xs.flatMap SetPiece.lexemes ++ after) ↔
      NothingFuses (xs.map SetPiece.word) ∧ ReadsBack after := by
  induction xs with
  | nil => simp [nothingFuses_nil]
  | cons x xs ih =>
      have hread := h.legible.isToken
      have hstand : StandsBefore x.lexeme (Lexeme.spell (xs.flatMap SetPiece.lexemes ++ after)) ↔
          ¬ Fuses x.word.text ((xs.map SetPiece.word).flatMap Word.render) :=
        h.standsBefore_iff ha
      have hlexemes : ReadsBack ((x :: xs).flatMap SetPiece.lexemes ++ after) ↔
          ReadsBack (x.lexeme :: (xs.flatMap SetPiece.lexemes ++ after)) := by
        rw [List.flatMap_cons, List.append_assoc, SetPiece.lexemes]
        split
        · exact readsBack_blank_iff (by simp) (by simp [isBlank]) hread.not_blank
        · rfl
      rw [hlexemes, readsBack_cons_iff, hstand, ih h.tail, List.map_cons, nothingFuses_cons_iff,
        and_assoc]

/-! ## Pages -/

theorem endsLine_belowLexemes (closed : Bool) (rows : List SetRow) :
    EndsLine (Lexeme.spell (belowLexemes closed rows)) := by
  cases rows with
  | nil => cases closed <;> rfl
  | cons r rows =>
      rw [belowLexemes]
      split <;> rfl

/-- The rows of a page as they are set: the tokens of each are, and the first has no space in
front. -/
def AllLaid (rows : List SetRow) : Prop :=
  ∀ r ∈ rows, Laid r.pieces ∧ r.pieces.head?.all (!·.spaced) = true

theorem setRows_laid {openings : List Opening} {apart : Bool} {lines : List (List Piece)}
    (h : ∀ line ∈ lines, Legible line) : AllLaid (setRows openings apart lines) := by
  intro r hr
  obtain ⟨openings, line, hline, _, hpieces⟩ := mem_setRows hr
  rw [hpieces]
  refine ⟨setLine_laid (h line hline), ?_⟩
  cases line <;> rfl

/-- What stands behind the tabs of a row is no blank. -/
theorem Laid.not_blank {xs : List SetPiece} {after : List Lexeme} (h : Laid xs)
    (hs : xs.head?.all (!·.spaced) = true) (ha : EndsLine (Lexeme.spell after)) :
    (Lexeme.spell (xs.flatMap SetPiece.lexemes ++ after)).head?.any isBlank = false := by
  cases xs with
  | nil =>
      rw [List.flatMap_nil, List.nil_append]
      cases hc : Lexeme.spell after with
      | nil => rfl
      | cons c cs =>
          rw [hc] at ha
          obtain rfl : c = '\n' := by simpa [EndsLine] using ha
          rfl
  | cons x xs =>
      have hx : ¬ x.spaced = true := by simpa using hs
      rw [List.flatMap_cons, SetPiece.lexemes, if_neg hx, List.append_assoc]
      exact h.legible.isToken.not_blank

theorem readsBack_row_iff {r : SetRow} {after : List Lexeme} (h : Laid r.pieces)
    (hs : r.pieces.head?.all (!·.spaced) = true) (ha : EndsLine (Lexeme.spell after)) :
    ReadsBack (r.lexemes ++ after) ↔ NothingFuses r.pageRow.row.words ∧ ReadsBack after := by
  have hindent : ReadsBack (r.lexemes ++ after) ↔
      ReadsBack (r.pieces.flatMap SetPiece.lexemes ++ after) := by
    rw [SetRow.lexemes, List.append_assoc, indentLexemes]
    split
    · rfl
    · rename_i hd
      refine readsBack_blank_iff (by simpa using hd) ?_ (h.not_blank hs ha)
      intro c hc
      rw [List.eq_of_mem_replicate hc]
      rfl
  rw [hindent, h.readsBack_iff ha]
  rfl

theorem readsBack_belowLexemes_iff {closed : Bool} {rows : List SetRow} (h : AllLaid rows) :
    ReadsBack (belowLexemes closed rows) ↔ ∀ r ∈ rows, NothingFuses r.pageRow.row.words := by
  induction rows with
  | nil =>
      cases closed with
      | false => simp [belowLexemes, readsBack_nil]
      | true =>
          simp [belowLexemes, readsBack_cons_iff, readsBack_nil, lineFeed, standsBefore_lineFeed]
  | cons r rows ih =>
      obtain ⟨⟨hr, hs⟩, hrows⟩ := List.forall_mem_cons.mp h
      have hbreak : ReadsBack (belowLexemes closed (r :: rows)) ↔
          ReadsBack (r.lexemes ++ belowLexemes closed rows) := by
        rw [belowLexemes]
        split <;> simp [readsBack_cons_iff, lineFeed, standsBefore_lineFeed]
      rw [hbreak, readsBack_row_iff hr hs (endsLine_belowLexemes closed rows), ih hrows,
        List.forall_mem_cons]

/-- A page is read back exactly if nothing fuses on any of its rows. -/
theorem readsBack_pageLexemes_iff {closed : Bool} {rows : List SetRow} (h : AllLaid rows) :
    ReadsBack (pageLexemes closed rows) ↔ ∀ r ∈ rows, NothingFuses r.pageRow.row.words := by
  cases rows with
  | nil => simp [pageLexemes, readsBack_nil]
  | cons r rows =>
      obtain ⟨⟨hr, hs⟩, hrows⟩ := List.forall_mem_cons.mp h
      rw [pageLexemes, readsBack_row_iff hr hs (endsLine_belowLexemes closed rows),
        readsBack_belowLexemes_iff hrows, List.forall_mem_cons]

theorem Laid.typeset {xs : List SetPiece} {after : List Lexeme} (h : Laid xs)
    (ha : Typeset after) : Typeset (xs.flatMap SetPiece.lexemes ++ after) := by
  induction xs with
  | nil => exact ha
  | cons x xs ih =>
      have hread := h.legible.isToken
      obtain ⟨c, tail, ht, hb, hl⟩ := hread.spells.head_eq hread.visible
      have htoken : Typeset (x.lexeme :: (xs.flatMap SetPiece.lexemes ++ after)) := by
        rw [SetPiece.lexeme, ht]
        exact .token hread.visible hb hl (ih h.tail)
      rw [List.flatMap_cons, List.append_assoc, SetPiece.lexemes]
      split
      · exact .blank (by simp) (by simp [isBlank]) hread.not_blank htoken
      · exact htoken

theorem typeset_row {r : SetRow} {after : List Lexeme} (h : Laid r.pieces)
    (hs : r.pieces.head?.all (!·.spaced) = true) (ha : EndsLine (Lexeme.spell after))
    (hafter : Typeset after) : Typeset (r.lexemes ++ after) := by
  rw [SetRow.lexemes, List.append_assoc, indentLexemes]
  split
  · exact h.typeset hafter
  · rename_i hd
    refine .blank (by simpa using hd) ?_ (h.not_blank hs ha) (h.typeset hafter)
    intro c hc
    rw [List.eq_of_mem_replicate hc]
    rfl

theorem typeset_belowLexemes {closed : Bool} {rows : List SetRow} (h : AllLaid rows) :
    Typeset (belowLexemes closed rows) := by
  induction rows with
  | nil =>
      cases closed with
      | false => exact .nil
      | true => exact .lineFeed .nil
  | cons r rows ih =>
      obtain ⟨⟨hr, hs⟩, hrows⟩ := List.forall_mem_cons.mp h
      have hrow := typeset_row hr hs (endsLine_belowLexemes closed rows) (ih hrows)
      rw [belowLexemes]
      split
      · exact .lineFeed (.lineFeed hrow)
      · exact .lineFeed hrow

theorem typeset_pageLexemes {closed : Bool} {rows : List SetRow} (h : AllLaid rows) :
    Typeset (pageLexemes closed rows) := by
  cases rows with
  | nil => exact .nil
  | cons r rows =>
      obtain ⟨⟨hr, hs⟩, hrows⟩ := List.forall_mem_cons.mp h
      exact typeset_row hr hs (endsLine_belowLexemes closed rows) (typeset_belowLexemes hrows)

/-! ## The tokens of a page -/

theorem Laid.visible {xs : List SetPiece} (h : Laid xs) :
    (xs.flatMap SetPiece.lexemes).filterMap Lexeme.visible? = xs.map (·.piece.token) := by
  induction xs with
  | nil => rfl
  | cons x xs ih =>
      have hk := h.legible.isToken.visible
      have hx : x.lexemes.filterMap Lexeme.visible? = [x.piece.token] := by
        rw [SetPiece.lexemes]
        split
        · rw [List.filterMap_cons_none rfl, SetPiece.lexeme,
            List.filterMap_cons_some (Lexeme.visible?_token hk)]
          rfl
        · rw [SetPiece.lexeme, List.filterMap_cons_some (Lexeme.visible?_token hk)]
          rfl
      rw [List.flatMap_cons, List.filterMap_append, hx, ih h.tail]
      rfl

theorem visible_row {r : SetRow} (h : Laid r.pieces) :
    r.lexemes.filterMap Lexeme.visible? = r.pieces.map (·.piece.token) := by
  have hindent : (indentLexemes r.depth).filterMap Lexeme.visible? = [] := by
    rw [indentLexemes]
    split <;> rfl
  rw [SetRow.lexemes, List.filterMap_append, hindent, List.nil_append, h.visible]

theorem visible_belowLexemes {closed : Bool} {rows : List SetRow} (h : AllLaid rows) :
    (belowLexemes closed rows).filterMap Lexeme.visible? =
      rows.flatMap (·.pieces.map (·.piece.token)) := by
  induction rows with
  | nil => cases closed <;> rfl
  | cons r rows ih =>
      obtain ⟨⟨hr, _⟩, hrows⟩ := List.forall_mem_cons.mp h
      have hbreak : (if r.apart then [lineFeed, lineFeed] else [lineFeed]).filterMap
          Lexeme.visible? = [] := by
        split <;> rfl
      rw [belowLexemes, List.filterMap_append, hbreak, List.nil_append, List.filterMap_append,
        visible_row hr, ih hrows, List.flatMap_cons]

theorem visible_pageLexemes {closed : Bool} {rows : List SetRow} (h : AllLaid rows) :
    (pageLexemes closed rows).filterMap Lexeme.visible? =
      rows.flatMap (·.pieces.map (·.piece.token)) := by
  cases rows with
  | nil => rfl
  | cons r rows =>
      obtain ⟨⟨hr, _⟩, hrows⟩ := List.forall_mem_cons.mp h
      rw [pageLexemes, List.filterMap_append, visible_row hr, visible_belowLexemes hrows,
        List.flatMap_cons]

theorem Piece.flatten_lines (ps : List Piece) :
    (lines ps).flatten = ps.filter (·.kind != .newline) := by
  induction ps with
  | nil => rfl
  | cons p ps ih =>
      by_cases hk : p.kind = .newline
      · rw [lines_cons_of_newline hk, List.flatten_cons, List.nil_append, ih]
        simp [hk]
      · obtain ⟨line, rest, hl, hcons⟩ := lines_cons_of_visible hk ps
        rw [hl] at ih
        rw [hcons, List.flatten_cons, List.cons_append, ← List.flatten_cons, ih]
        simp [hk]

theorem Piece.visible_ofLexemes (before : Option Char) (xs : List Lexeme) :
    ((ofLexemes before xs).filter (·.kind != .newline)).map token =
      xs.filterMap Lexeme.visible? := by
  induction xs generalizing before with
  | nil => rfl
  | cons x xs ih =>
      obtain ⟨is, text⟩ := x
      cases is with
      | blank => exact ih text.getLast?
      | fault why => exact ih text.getLast?
      | token kind =>
          have ih := ih text.getLast?
          by_cases hk : kind = .newline
          · subst hk
            rw [List.filterMap_cons_none rfl]
            exact ih
          · rw [List.filterMap_cons_some (Lexeme.visible?_token hk), ← ih, ofLexemes,
              List.filter_cons_of_pos (by simpa using hk)]
            rfl

/-! ## Whole sources -/

/-- The tokens of a source as the layout sees them. -/
def piecesOf (source : String) : List Piece := Piece.ofLexemes none (lexemes source.toList)

/-- The rows that a source is laid out in. -/
def rowsOf (source : String) : List PageRow :=
  arrangeLines [] false (Piece.lines (piecesOf source))

/-- The rows of a source with their tokens. -/
def setRowsOf (source : String) : List SetRow := setRows [] false (Piece.lines (piecesOf source))

/-- The page of a source as the lexemes it is written from. -/
def pageOf (source : String) : List Lexeme :=
  pageLexemes ((piecesOf source).any (·.kind == .newline)) (setRowsOf source)

theorem setRowsOf_laid (source : String) : AllLaid (setRowsOf source) :=
  setRows_laid (legible_of_lines (readsBack_lexemes source.toList) none)

theorem rowsOf_eq (source : String) : rowsOf source = (setRowsOf source).map SetRow.pageRow :=
  arrangeLines_eq _ _ _

theorem toList_eq_renderPage {source out : String} (h : reformat source = .ok out) :
    out.toList = renderPage ((piecesOf source).any (·.kind == .newline)) (rowsOf source) := by
  rw [(reformat_ok_iff.mp h).2, String.toList_ofList]
  rfl

theorem toList_of_reformat {source out : String} (h : reformat source = .ok out) :
    out.toList = Lexeme.spell (pageOf source) := by
  rw [toList_eq_renderPage h, pageOf, spell_pageLexemes, ← rowsOf_eq]

/-- The page has the visible tokens of its source. -/
theorem visible_pageOf (source : String) :
    (pageOf source).filterMap Lexeme.visible? =
      (lexemes source.toList).filterMap Lexeme.visible? := by
  rw [pageOf, visible_pageLexemes (setRowsOf_laid source), ← Piece.visible_ofLexemes none,
    ← Piece.flatten_lines, ← setRows_flatMap_pieces [] false, List.map_flatMap]
  simp only [List.map_map]
  rfl

theorem rawTokens_of_reformat {source out : String} (h : reformat source = .ok out) :
    ∃ ts, rawTokens source = .ok ts := by
  have hfault := (reformat_ok_iff.mp h).1
  rw [layoutFault?_eq] at hfault
  cases hr : rawTokens source with
  | error fault =>
      rw [hr] at hfault
      cases hfault
  | ok ts => exact ⟨ts, rfl⟩

theorem sameTokens_iff_readsBack {source out : String} (h : reformat source = .ok out) :
    SameTokens source out ↔ ReadsBack (pageOf source) := by
  have hout := toList_of_reformat h
  constructor
  · rintro ⟨ts, us, hts, hus, hsame⟩
    obtain ⟨_, hvis⟩ := rawTokens_visible_iff.mp ⟨ts, hts, rfl⟩
    obtain ⟨hread, hvis'⟩ := rawTokens_visible_iff.mp ⟨us, hus, rfl⟩
    rw [hout] at hread hvis'
    refine (typeset_pageLexemes (setRowsOf_laid source)).readsBack_of_visible hread ?_
    show _ = (pageOf source).filterMap Lexeme.visible?
    rw [visible_pageOf, hvis, ← hsame]
    exact hvis'
  · intro hread
    obtain ⟨ts, hts⟩ := rawTokens_of_reformat h
    obtain ⟨_, hvis⟩ := rawTokens_visible_iff.mp ⟨ts, hts, rfl⟩
    have hlexemes : lexemes out.toList = pageOf source := by
      rw [hout]
      exact hread
    have hread : ∀ x ∈ lexemes out.toList, x.Readable := by
      rw [hlexemes]
      exact (typeset_pageLexemes (setRowsOf_laid source)).readable
    obtain ⟨us, hus, hsame⟩ := rawTokens_visible_iff.mpr ⟨hread, rfl⟩
    refine ⟨ts, us, hts, hus, ?_⟩
    rw [hsame, hlexemes, visible_pageOf, hvis]

/-- **When the layout keeps the tokens.**  If bytes are laid out, they are a text, and scanning
what was written gives back the tokens of that text exactly if on no row a token fuses with
what is written behind it. -/
theorem reformatBytes_keeps_tokens_iff {bytes : ByteArray} {out : String}
    (h : reformatBytes bytes = .ok out) : ∃ source, String.fromUTF8? bytes = some source ∧
      (SameTokens source out ↔ ∀ r ∈ rowsOf source, NothingFuses r.row.words) := by
  cases hb : String.fromUTF8? bytes with
  | none =>
      rw [reformatBytes_of_no_text hb] at h
      cases h
  | some source =>
      rw [reformatBytes_of_text hb] at h
      refine ⟨source, rfl, ?_⟩
      rw [sameTokens_iff_readsBack h, rowsOf_eq, List.forall_mem_map]
      exact readsBack_pageLexemes_iff (setRowsOf_laid source)

theorem reformatBytes_toUTF8 (source : String) : reformatBytes source.toUTF8 = reformat source :=
  reformatBytes_of_text (fromUTF8?_toUTF8 source)

/-- A sign in front of a negative operand is such a token. -/
theorem reformatBytes_minuses : reformatBytes "- -x".toUTF8 = .ok "--x" := by
  rw [reformatBytes_toUTF8]
  decide

theorem reformatBytes_keeps_tokens_iff_minuses :
    reformatBytes "- -x".toUTF8 = .ok "--x" ∧
      ∃ source, String.fromUTF8? "- -x".toUTF8 = some source ∧
        (SameTokens source "--x" ↔ ∀ r ∈ rowsOf source, NothingFuses r.row.words) :=
  ⟨reformatBytes_minuses, reformatBytes_keeps_tokens_iff reformatBytes_minuses⟩

/-- The layout does not keep the tokens of every source: two signs become a decrement. -/
theorem not_reformatBytes_keeps_tokens : ¬ ∀ bytes source out,
    String.fromUTF8? bytes = some source → reformatBytes bytes = .ok out →
      SameTokens source out := by
  intro hall
  obtain ⟨ts, us, hts, hus, hsame⟩ :=
    hall _ _ _ (fromUTF8?_toUTF8 "- -x") reformatBytes_minuses
  have hread : (rawTokens "- -x").map visibleTokens =
      .ok [⟨.minus, ['-']⟩, ⟨.minus, ['-']⟩, ⟨.identifier, ['x']⟩] := by rfl
  have hreread : (rawTokens "--x").map visibleTokens =
      .ok [⟨.decrement, ['-', '-']⟩, ⟨.identifier, ['x']⟩] := by rfl
  rw [hts] at hread
  rw [hus] at hreread
  have hread := Except.ok.inj hread
  have hreread := Except.ok.inj hreread
  rw [hsame, hread] at hreread
  cases hreread

end MethodSkeleton
