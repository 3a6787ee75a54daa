/-
# `MethodSkeleton.Proofs.Layout.Lines` — the lines of a source and the characters beside a token

The layout is told three things of a source: its tokens, the lines they stand on, and for each
token whether a blank stands directly in front of it or behind it.  Here all three are read off
the text and the spans of its tokens, without the layout: a line is what line breaks separate
(`tokenLines`), the lines that hold a token are counted off with the empty ones above them
(`sourceLines`), and the characters beside a span are looked up in the text (`charBefore?`,
`charAt?`).

The two accounts are one.  The layout's tokens are the tokens of the text, each with what stands
beside its span (`piecesOf_eq`); its lines are theirs (`lines_map`); and it sets one row for every
line that holds a token, apart from the row above exactly if a line without tokens stands between
(`setRowsOf_eq`).  The tokens of a line stand next to each other in the source, behind those of the
lines above (`exists_append_of_sourceLines`).
-/
import MethodSkeleton.Proofs.Layout.Tokens
import MethodSkeleton.Proofs.Source.Places

namespace MethodSkeleton

/-! ## Beside a position -/

/-- The character that begins at a position. -/
def charAt? : List Char → Nat → Option Char
  | [], _ => none
  | c :: cs, position => if position = 0 then some c else charAt? cs (position - c.utf8Size)

/-- The character that ends at a position. -/
def charBefore? : List Char → Nat → Option Char
  | [], _ => none
  | c :: cs, position =>
    if position = c.utf8Size then some c else charBefore? cs (position - c.utf8Size)

theorem charAt?_append (before after : List Char) :
    charAt? (before ++ after) (byteWidth before) = after.head? := by
  induction before with
  | nil =>
      cases after with
      | nil => rfl
      | cons c after => rfl
  | cons c before ih =>
      have hpos := c.utf8Size_pos
      have hne : byteWidth (c :: before) ≠ 0 := by
        rw [byteWidth]
        omega
      rw [List.cons_append, charAt?, if_neg hne, byteWidth, Nat.add_sub_cancel_left]
      exact ih

theorem charBefore?_zero (cs : List Char) : charBefore? cs 0 = none := by
  induction cs with
  | nil => rfl
  | cons c cs ih =>
      have hpos := c.utf8Size_pos
      rw [charBefore?, if_neg (by omega), Nat.zero_sub]
      exact ih

theorem charBefore?_append (before after : List Char) :
    charBefore? (before ++ after) (byteWidth before) = before.getLast? := by
  induction before with
  | nil => exact charBefore?_zero after
  | cons c before ih =>
      rw [List.cons_append, charBefore?, byteWidth, Nat.add_sub_cancel_left, ih,
        List.getLast?_cons]
      cases before with
      | nil => simp [byteWidth]
      | cons d before =>
          have hne : byteWidth (d :: before) ≠ 0 := fun h =>
            List.cons_ne_nil d before (byteWidth_eq_zero_iff.mp h)
          rw [if_neg (by omega), List.getLast?_cons]
          rfl

/-! ## The layout's tokens -/

/-- A token as the layout sees it: with what stands beside its span in the source. -/
def Piece.ofToken (source : List Char) (t : Located RawToken) : Piece where
  kind := t.value.kind
  text := t.value.text
  blankBefore := setsOff (charBefore? source t.span.start)
  blankAfter := endsAt (charAt? source t.span.stop)

theorem firstChar?_eq {xs : List Lexeme} (h : ∀ x ∈ xs, x.text ≠ []) :
    Piece.firstChar? xs = (Lexeme.spell xs).head? := by
  cases xs with
  | nil => rfl
  | cons x xs =>
      obtain ⟨c, tail, ht⟩ := List.exists_cons_of_ne_nil (h x List.mem_cons_self)
      rw [spell_cons, ht, Piece.firstChar?, List.head?_cons, Option.bind_some, ht]
      rfl

/-- The layout's tokens behind a text `before`, by their spans. -/
theorem ofLexemes_eq_map {xs : List Lexeme} {before : List Char} {ts : List (Located RawToken)}
    (hx : ∀ x ∈ xs, x.text ≠ [])
    (h : rawTokensOf (Lexeme.locate (byteWidth before) xs) = .ok ts) :
    Piece.ofLexemes before.getLast? xs =
      ts.map (Piece.ofToken (before ++ Lexeme.spell xs)) := by
  induction xs generalizing before ts with
  | nil =>
      cases h
      rfl
  | cons x xs ih =>
      obtain ⟨hne, hxs⟩ := List.forall_mem_cons.mp hx
      obtain ⟨is, text⟩ := x
      have hlast : (before ++ text).getLast? = text.getLast? := by
        rw [List.getLast?_append]
        obtain ⟨c, tail, rfl⟩ := List.exists_cons_of_ne_nil hne
        rw [List.getLast?_cons]
        rfl
      have hrest : ∀ us,
          rawTokensOf (Lexeme.locate (byteWidth before + byteWidth text) xs) = .ok us →
          Piece.ofLexemes text.getLast? xs =
            us.map (Piece.ofToken (before ++ Lexeme.spell (⟨is, text⟩ :: xs))) := by
        intro us hus
        rw [← byteWidth_append] at hus
        rw [← hlast, ih hxs hus, spell_cons, List.append_assoc]
      rw [Lexeme.locate, rawTokensOf] at h
      cases is with
      | blank => exact hrest ts h
      | fault why => cases h
      | token kind =>
          cases hr : rawTokensOf (Lexeme.locate (byteWidth before + byteWidth text) xs) with
          | error fault =>
              simp only [hr] at h
              cases h
          | ok us =>
              simp only [hr] at h
              cases h
              have hbefore : charBefore? (before ++ Lexeme.spell (⟨.token kind, text⟩ :: xs))
                  (byteWidth before) = before.getLast? := charBefore?_append before _
              have hafter : charAt? (before ++ Lexeme.spell (⟨.token kind, text⟩ :: xs))
                  (byteWidth before + byteWidth text) = Piece.firstChar? xs := by
                rw [spell_cons, ← List.append_assoc, ← byteWidth_append, charAt?_append,
                  firstChar?_eq hxs]
              rw [List.map_cons, ← hrest us hr, Piece.ofToken, hbefore, hafter]
              rfl

/-- The layout's tokens are those of the text, each with what stands beside its span. -/
theorem piecesOf_eq {source : String} {ts : List (Located RawToken)}
    (h : rawTokens source = .ok ts) : piecesOf source = ts.map (Piece.ofToken source.toList) := by
  have hpieces := @ofLexemes_eq_map (lexemes source.toList) [] ts
    (readsBack_lexemes source.toList).text_ne_nil h
  rw [List.nil_append, spell_lexemes] at hpieces
  exact hpieces

/-! ## Lines -/

/-- The lines that line breaks cut tokens into; there is one more than there are breaks. -/
def tokenLines (ts : List (Located RawToken)) : List (List (Located RawToken)) :=
  ts.splitOnP (·.value.kind == .newline)

/-- A line that holds a token, and how many lines without any stand directly above it. -/
structure SourceLine where
  blanks : Nat
  tokens : List (Located RawToken)

/-- The lines that hold a token, where `blanks` lines without any have just been passed. -/
def SourceLine.ofLines : Nat → List (List (Located RawToken)) → List SourceLine
  | _, [] => []
  | blanks, [] :: lines => ofLines (blanks + 1) lines
  | blanks, (t :: line) :: lines => ⟨blanks, t :: line⟩ :: ofLines 0 lines

/-- The lines of a source that hold a token. -/
def sourceLines (ts : List (Located RawToken)) : List SourceLine :=
  SourceLine.ofLines 0 (tokenLines ts)

theorem tokenLines_ne_nil (ts : List (Located RawToken)) : tokenLines ts ≠ [] :=
  List.splitOnP_ne_nil _ ts

theorem tokenLines_cons_of_newline {t : Located RawToken} (h : t.value.kind = .newline)
    (ts : List (Located RawToken)) : tokenLines (t :: ts) = [] :: tokenLines ts := by
  rw [tokenLines, List.splitOnP_cons_eq_if_modifyHead, if_pos (by simp [h])]
  rfl

theorem tokenLines_cons_of_visible {t : Located RawToken} (h : t.value.kind ≠ .newline)
    (ts : List (Located RawToken)) : ∃ line rest, tokenLines ts = line :: rest ∧
      tokenLines (t :: ts) = (t :: line) :: rest := by
  obtain ⟨line, rest, hl⟩ := List.exists_cons_of_ne_nil (tokenLines_ne_nil ts)
  refine ⟨line, rest, hl, ?_⟩
  rw [tokenLines, List.splitOnP_cons_eq_if_modifyHead, if_neg (by simp [h])]
  show (tokenLines ts).modifyHead _ = _
  rw [hl]
  rfl

/-- The layout cuts tokens into the same lines. -/
theorem lines_map (source : List Char) (ts : List (Located RawToken)) :
    Piece.lines (ts.map (Piece.ofToken source)) =
      (tokenLines ts).map (List.map (Piece.ofToken source)) := by
  induction ts with
  | nil => rfl
  | cons t ts ih =>
      by_cases hk : t.value.kind = .newline
      · have hp : (Piece.ofToken source t).kind = .newline := hk
        rw [List.map_cons, Piece.lines_cons_of_newline hp, tokenLines_cons_of_newline hk, ih]
        rfl
      · obtain ⟨line, rest, hl, hcons⟩ := tokenLines_cons_of_visible hk ts
        have hp : (Piece.ofToken source t).kind ≠ .newline := hk
        obtain ⟨line', rest', hl', hcons'⟩ :=
          Piece.lines_cons_of_visible hp (ts.map (Piece.ofToken source))
        rw [ih, hl] at hl'
        cases hl'
        rw [List.map_cons, hcons', hcons]
        rfl

theorem SourceLine.tokens_ne_nil {blanks : Nat} {lines : List (List (Located RawToken))} :
    ∀ l ∈ ofLines blanks lines, l.tokens ≠ [] := by
  induction lines generalizing blanks with
  | nil => simp [ofLines]
  | cons line lines ih =>
      cases line with
      | nil => exact ih
      | cons t line => exact List.forall_mem_cons.mpr ⟨List.cons_ne_nil t line, ih⟩

theorem SourceLine.flatMap_tokens (blanks : Nat) (lines : List (List (Located RawToken))) :
    (ofLines blanks lines).flatMap (·.tokens) = lines.flatten := by
  induction lines generalizing blanks with
  | nil => rfl
  | cons line lines ih =>
      cases line with
      | nil => exact ih (blanks + 1)
      | cons t line => rw [ofLines, List.flatMap_cons, ih, List.flatten_cons]

/-- The lines of a source hold its tokens, all but the line breaks. -/
theorem sourceLines_flatMap_tokens (ts : List (Located RawToken)) :
    (sourceLines ts).flatMap (·.tokens) = ts.filter (·.value.kind != .newline) := by
  rw [sourceLines, SourceLine.flatMap_tokens]
  induction ts with
  | nil => rfl
  | cons t ts ih =>
      by_cases hk : t.value.kind = .newline
      · rw [tokenLines_cons_of_newline hk, List.flatten_cons, List.nil_append, ih]
        simp [hk]
      · obtain ⟨line, rest, hl, hcons⟩ := tokenLines_cons_of_visible hk ts
        rw [hl] at ih
        rw [hcons, List.flatten_cons, List.cons_append, ← List.flatten_cons, ih]
        simp [hk]

/-- A line stands somewhere among the tokens, behind the lines above it. -/
theorem exists_append_of_tokenLines {ts line : List (Located RawToken)}
    {above below : List (List (Located RawToken))} (h : tokenLines ts = above ++ line :: below) :
    ∃ before after, ts = before ++ line ++ after ∧
      before.filter (·.value.kind != .newline) = above.flatten ∧ (above = [] → before = []) := by
  induction ts generalizing above line with
  | nil =>
      cases above with
      | nil =>
          cases h
          exact ⟨[], [], rfl, rfl, fun _ => rfl⟩
      | cons l above => cases above <;> cases h
  | cons t ts ih =>
      by_cases hk : t.value.kind = .newline
      · rw [tokenLines_cons_of_newline hk] at h
        cases above with
        | nil =>
            cases h
            exact ⟨[], t :: ts, rfl, rfl, fun _ => rfl⟩
        | cons l above =>
            obtain ⟨rfl, hrest⟩ := List.cons.inj h
            obtain ⟨before, after, rfl, hbefore, _⟩ := ih hrest
            exact ⟨t :: before, after, rfl, by simp [hk, hbefore], by simp⟩
      · obtain ⟨first, rest, hl, hcons⟩ := tokenLines_cons_of_visible hk ts
        rw [hcons] at h
        cases above with
        | nil =>
            cases h
            obtain ⟨before, after, hts, _, hempty⟩ := @ih _ [] hl
            rw [hempty rfl] at hts
            exact ⟨[], after, by rw [hts]; rfl, rfl, fun _ => rfl⟩
        | cons l above =>
            obtain ⟨rfl, rfl⟩ := List.cons.inj h
            obtain ⟨before, after, rfl, hbefore, _⟩ := @ih _ (first :: above) hl
            exact ⟨t :: before, after, rfl, by simp [hk, hbefore], by simp⟩

theorem SourceLine.exists_append_of_ofLines {blanks : Nat} {lines : List (List (Located RawToken))}
    {above below : List SourceLine} {l : SourceLine}
    (h : ofLines blanks lines = above ++ l :: below) :
    ∃ before after, lines = before ++ l.tokens :: after ∧
      before.flatten = above.flatMap (·.tokens) := by
  induction lines generalizing blanks above with
  | nil => cases above <;> cases h
  | cons line lines ih =>
      cases line with
      | nil =>
          obtain ⟨before, after, rfl, hbefore⟩ := ih h
          exact ⟨[] :: before, after, rfl, hbefore⟩
      | cons t line =>
          cases above with
          | nil =>
              cases h
              exact ⟨[], lines, rfl, rfl⟩
          | cons a above =>
              obtain ⟨rfl, hrest⟩ := List.cons.inj h
              obtain ⟨before, after, rfl, hbefore⟩ := ih hrest
              refine ⟨(t :: line) :: before, after, rfl, ?_⟩
              rw [List.flatten_cons, hbefore, List.flatMap_cons]

/-- The tokens of a line of a source stand next to each other in it, behind the lines above. -/
theorem exists_append_of_sourceLines {ts : List (Located RawToken)} {above below : List SourceLine}
    {l : SourceLine} (h : sourceLines ts = above ++ l :: below) :
    ∃ before after, ts = before ++ l.tokens ++ after ∧
      before.filter (·.value.kind != .newline) = above.flatMap (·.tokens) := by
  obtain ⟨lines, lines', hlines, habove⟩ := SourceLine.exists_append_of_ofLines h
  obtain ⟨before, after, hts, hbefore, _⟩ := exists_append_of_tokenLines hlines
  exact ⟨before, after, hts, hbefore.trans habove⟩

/-! ## Rows -/

/-- The rows of lines in front of which `openings` are open. -/
def setSourceLines (source : List Char) : List Opening → List SourceLine → List SetRow
  | _, [] => []
  | openings, l :: ls =>
    let line := l.tokens.map (Piece.ofToken source)
    ⟨decide (0 < l.blanks), rowDepth openings line, setLine openings line⟩ ::
      setSourceLines source (arrangeRow openings line).2 ls

theorem setRows_map (source : List Char) (openings : List Opening) (blanks : Nat)
    (lines : List (List (Located RawToken))) :
    setRows openings (decide (0 < blanks)) (lines.map (List.map (Piece.ofToken source))) =
      setSourceLines source openings (SourceLine.ofLines blanks lines) := by
  induction lines generalizing openings blanks with
  | nil => rfl
  | cons line lines ih =>
      cases line with
      | nil => exact ih openings (blanks + 1)
      | cons t line => exact congrArg _ (ih _ 0)

/-- There is one row for every line that holds a token, in their order. -/
theorem setRowsOf_eq {source : String} {ts : List (Located RawToken)}
    (h : rawTokens source = .ok ts) :
    setRowsOf source = setSourceLines source.toList [] (sourceLines ts) := by
  rw [setRowsOf, piecesOf_eq h, lines_map]
  exact setRows_map source.toList [] 0 (tokenLines ts)

theorem any_newline_piecesOf {source : String} {ts : List (Located RawToken)}
    (h : rawTokens source = .ok ts) :
    (piecesOf source).any (·.kind == .newline) = ts.any (·.value.kind == .newline) := by
  rw [piecesOf_eq h, List.any_map]
  rfl

/-- A text whose tokens can be read is refused for its delimiters, or its lines are set. -/
theorem reformat_of_rawTokens {source : String} {ts : List (Located RawToken)}
    (h : rawTokens source = .ok ts) :
    reformat source =
      match nestingFault? [] none (significant ts) with
      | some e => .error e
      | none => .ok (String.ofList (renderPage (ts.any (·.value.kind == .newline))
          ((setSourceLines source.toList [] (sourceLines ts)).map SetRow.pageRow))) := by
  rw [← setRowsOf_eq h, ← rowsOf_eq, ← any_newline_piecesOf h, reformat, layoutFault?_eq, h]
  rfl

/-- The row is set from the line: from its tokens, and apart from the row above exactly if lines
without tokens stand above the line. -/
structure SetFrom (source : List Char) (l : SourceLine) (r : SetRow) : Prop where
  apart : r.apart = decide (0 < l.blanks)
  pieces : r.pieces.map (·.piece) = l.tokens.map (Piece.ofToken source)

theorem setSourceLines_forall₂ (source : List Char) (openings : List Opening)
    (ls : List SourceLine) :
    List.Forall₂ (SetFrom source) ls (setSourceLines source openings ls) := by
  induction ls generalizing openings with
  | nil => exact .nil
  | cons l ls ih => exact .cons ⟨rfl, setPieces_map_piece _ _ _ _⟩ (ih _)

theorem SetFrom.flatMap_pieces {source : List Char} {ls : List SourceLine} {rows : List SetRow}
    (h : List.Forall₂ (SetFrom source) ls rows) :
    (rows.flatMap (·.pieces)).map (·.piece) =
      (ls.flatMap (·.tokens)).map (Piece.ofToken source) := by
  induction h with
  | nil => rfl
  | cons hl _ ih =>
      rw [List.flatMap_cons, List.map_append, ih, hl.pieces, List.flatMap_cons, List.map_append]

/-- A row and those above it are set from a line and those above that. -/
theorem SetFrom.exists_line {source : List Char} {ls : List SourceLine} {above below : List SetRow}
    {r : SetRow} (h : List.Forall₂ (SetFrom source) ls (above ++ r :: below)) :
    ∃ ls₁ l ls₂, ls = ls₁ ++ l :: ls₂ ∧ List.Forall₂ (SetFrom source) ls₁ above ∧
      SetFrom source l r := by
  have habove := List.forall₂_take_append _ _ _ h
  have hrow := List.forall₂_drop_append _ _ _ h
  cases hdrop : ls.drop above.length with
  | nil =>
      rw [hdrop] at hrow
      cases hrow
  | cons l ls₂ =>
      rw [hdrop, List.forall₂_cons] at hrow
      exact ⟨_, l, ls₂, by rw [← hdrop, List.take_append_drop], habove, hrow.1⟩

end MethodSkeleton
