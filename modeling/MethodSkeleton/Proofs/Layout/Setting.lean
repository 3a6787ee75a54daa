/-
# `MethodSkeleton.Proofs.Layout.Setting` — a page as the lexemes it is written from

The layout keeps of a token what it writes: its text and whether a space comes first.  To
follow the tokens through a page and back, the same page is set here with the tokens
themselves (`setRows`), and again as the lexemes that its text is made of (`pageLexemes`).
Both are the page of the layout: `arrangeLines_eq` and `spell_pageLexemes`.

Of the lines that are set only this matters: their tokens were read from a text, and a line
comment is the last of its line (`Legible`).
-/
import MethodSkeleton.Layout.Page
import MethodSkeleton.Proofs.Source.Reread

namespace MethodSkeleton

/-- A token as the scanner gives it. -/
def Piece.token (p : Piece) : RawToken := ⟨p.kind, p.text⟩

/-! ## Lines that were read -/

/-- A token that can be read from a text and shows on its line. -/
structure Piece.IsToken (p : Piece) : Prop where
  visible : p.kind ≠ .newline
  spells : Spells p.kind p.text

/-- The tokens of a line: nothing comes behind a line comment. -/
inductive Legible : List Piece → Prop
  | nil : Legible []
  | last {p : Piece} : p.IsToken → Legible [p]
  | cons {p : Piece} {line : List Piece} : p.IsToken → p.kind ≠ .lineComment → Legible line →
      Legible (p :: line)

theorem Legible.forall_isToken {line : List Piece} (h : Legible line) : ∀ p ∈ line, p.IsToken := by
  induction h with
  | nil => simp
  | last hp => simpa using hp
  | cons hp _ _ ih => exact List.forall_mem_cons.mpr ⟨hp, ih⟩

theorem Piece.lines_ne_nil (ps : List Piece) : lines ps ≠ [] := by
  cases ps with
  | nil => simp [lines]
  | cons p ps =>
      rw [lines]
      split
      · simp
      · split <;> simp

theorem Piece.lines_cons_of_newline {p : Piece} {ps : List Piece} (h : p.kind = .newline) :
    lines (p :: ps) = [] :: lines ps := by
  simp [lines, h]

theorem Piece.lines_cons_of_visible {p : Piece} (h : p.kind ≠ .newline) (ps : List Piece) :
    ∃ line rest, lines ps = line :: rest ∧ lines (p :: ps) = (p :: line) :: rest := by
  obtain ⟨line, rest, hl⟩ := List.exists_cons_of_ne_nil (lines_ne_nil ps)
  refine ⟨line, rest, hl, ?_⟩
  simp [lines, h, hl]

/-- Behind a line comment the line is over. -/
theorem lines_behind_lineComment {xs : List Lexeme} (h : ReadsBack xs)
    (hend : (Lexeme.spell xs).head?.all isLineEnd = true) (before : Option Char) :
    ∃ rest, Piece.lines (Piece.ofLexemes before xs) = [] :: rest := by
  cases xs with
  | nil => exact ⟨[], rfl⟩
  | cons y ys =>
      obtain ⟨⟨c, tail, ht, hm⟩, _⟩ := readsBack_cons_iff.mp h
      have hc : isLineEnd c = true := by
        rw [spell_cons, ht] at hend
        simpa using hend
      have his : y.is = .token .newline := by
        rw [← show (munch c (tail ++ Lexeme.spell ys)).1 = y.is from congrArg Prod.fst hm]
        rcases isLineEnd_iff.mp hc with rfl | rfl <;> rfl
      refine ⟨Piece.lines (Piece.ofLexemes y.text.getLast? ys), ?_⟩
      simp only [Piece.ofLexemes, his]
      exact Piece.lines_cons_of_newline rfl

/-- The lines of a text are legible. -/
theorem legible_of_lines {xs : List Lexeme} (h : ReadsBack xs) (before : Option Char) :
    ∀ line ∈ Piece.lines (Piece.ofLexemes before xs), Legible line := by
  induction xs generalizing before with
  | nil =>
      intro line hline
      rw [List.mem_singleton.mp hline]
      exact .nil
  | cons x xs ih =>
      obtain ⟨hx, hxs⟩ := readsBack_cons_iff.mp h
      have ih := ih hxs x.text.getLast?
      obtain ⟨is, text⟩ := x
      cases is with
      | blank => exact ih
      | fault why => exact ih
      | token kind =>
          by_cases hk : kind = .newline
          · subst hk
            show ∀ line ∈ Piece.lines (_ :: Piece.ofLexemes _ xs), _
            rw [Piece.lines_cons_of_newline rfl, List.forall_mem_cons]
            exact ⟨.nil, ih⟩
          · show ∀ line ∈ Piece.lines (_ :: Piece.ofLexemes _ xs), _
            let p : Piece :=
              ⟨kind, text, Piece.setsOff before, Piece.endsAt (Piece.firstChar? xs)⟩
            obtain ⟨line, rest, hl, hcons⟩ :=
              @Piece.lines_cons_of_visible p hk (Piece.ofLexemes text.getLast? xs)
            rw [hcons, List.forall_mem_cons]
            rw [hl, List.forall_mem_cons] at ih
            refine ⟨?_, ih.2⟩
            by_cases hc : kind = .lineComment
            · subst hc
              obtain ⟨rest', hnil⟩ := lines_behind_lineComment hxs hx.line_end text.getLast?
              rw [hl] at hnil
              cases hnil
              exact .last ⟨hk, hx.spells⟩
            · exact .cons ⟨hk, hx.spells⟩ hc ih.1

/-! ## Rows with their tokens -/

/-- A token and whether a space is written in front of it. -/
structure SetPiece where
  spaced : Bool
  piece : Piece

/-- A row, its tokens, and whether a blank line comes before it. -/
structure SetRow where
  apart : Bool
  depth : Nat
  pieces : List SetPiece

/-- The rest of a line, behind `prev` and inside of `openings`, as it is set. -/
def setPieces (traits : LineTraits) : Openings → Option Written → List Piece → List SetPiece
  | _, _, [] => []
  | openings, prev, p :: ps =>
    let next := ps.head?.map (·.kind)
    let spaced := spaceBefore traits openings prev p next
    ⟨spaced, p⟩ :: setPieces traits (openingsBehind openings prev p spaced next)
      (some (writtenAs openings prev p spaced)) ps

/-- A whole line as it is set. -/
def setLine (openings : List Opening) (line : List Piece) : List SetPiece :=
  setPieces (.ofLine line) ⟨openings, []⟩ none line

/-- Lines as they are set; `apart` says that a blank line has just been passed. -/
def setRows : List Opening → Bool → List (List Piece) → List SetRow
  | _, _, [] => []
  | openings, _, [] :: lines => setRows openings true lines
  | openings, apart, (p :: line) :: lines =>
    ⟨apart, rowDepth openings (p :: line), setLine openings (p :: line)⟩ ::
      setRows (arrangeRow openings (p :: line)).2 false lines

def SetPiece.word (x : SetPiece) : Word := ⟨x.spaced, x.piece.text⟩

def SetRow.pageRow (r : SetRow) : PageRow := ⟨r.apart, ⟨r.depth, r.pieces.map SetPiece.word⟩⟩

theorem arrangeWords_fst (traits : LineTraits) (openings : Openings) (prev : Option Written)
    (ps : List Piece) : (arrangeWords traits openings prev ps).1 =
      (setPieces traits openings prev ps).map SetPiece.word := by
  induction ps generalizing openings prev with
  | nil => rfl
  | cons p ps ih =>
      simp only [arrangeWords, setPieces, List.map_cons, ih]
      rfl

/-- A line that is set is the row that is arranged. -/
theorem pageRow_setLine (openings : List Opening) (apart : Bool) (line : List Piece) :
    SetRow.pageRow ⟨apart, rowDepth openings line, setLine openings line⟩ =
      ⟨apart, (arrangeRow openings line).1⟩ := by
  simp only [SetRow.pageRow, setLine, arrangeRow, arrangeWords_fst]

theorem arrangeLines_eq (openings : List Opening) (apart : Bool) (lines : List (List Piece)) :
    arrangeLines openings apart lines = (setRows openings apart lines).map SetRow.pageRow := by
  induction lines generalizing openings apart with
  | nil => rfl
  | cons line lines ih =>
      cases line with
      | nil => exact ih openings true
      | cons p line =>
          simp only [arrangeLines, setRows, List.map_cons, ih, pageRow_setLine]

theorem setPieces_map_piece (traits : LineTraits) (openings : Openings) (prev : Option Written)
    (ps : List Piece) : (setPieces traits openings prev ps).map (·.piece) = ps := by
  induction ps generalizing openings prev with
  | nil => rfl
  | cons p ps ih => simp only [setPieces, List.map_cons, ih]

theorem mem_setRows {openings : List Opening} {apart : Bool} {lines : List (List Piece)}
    {r : SetRow} (h : r ∈ setRows openings apart lines) :
    ∃ openings, ∃ line ∈ lines, line ≠ [] ∧ r.pieces = setLine openings line := by
  induction lines generalizing openings apart with
  | nil => cases h
  | cons line lines ih =>
      cases line with
      | nil =>
          obtain ⟨openings, line, hline, hr⟩ := ih h
          exact ⟨openings, line, List.mem_cons_of_mem _ hline, hr⟩
      | cons p line =>
          rcases List.mem_cons.mp h with rfl | h
          · exact ⟨openings, _, List.mem_cons_self, List.cons_ne_nil p line, rfl⟩
          · obtain ⟨openings, line, hline, hr⟩ := ih h
            exact ⟨openings, line, List.mem_cons_of_mem _ hline, hr⟩

theorem setRows_flatMap_pieces (openings : List Opening) (apart : Bool)
    (lines : List (List Piece)) :
    (setRows openings apart lines).flatMap (·.pieces.map (·.piece)) = lines.flatten := by
  induction lines generalizing openings apart with
  | nil => rfl
  | cons line lines ih =>
      cases line with
      | nil => exact ih openings true
      | cons p line =>
          simp only [setRows, setLine, List.flatMap_cons, setPieces_map_piece, ih,
            List.flatten_cons]

/-! ## Rows and pages as lexemes -/

def SetPiece.lexeme (x : SetPiece) : Lexeme := ⟨.token x.piece.kind, x.piece.text⟩

def SetPiece.lexemes (x : SetPiece) : List Lexeme :=
  if x.spaced then [⟨.blank, [' ']⟩, x.lexeme] else [x.lexeme]

/-- The tabs in front of a row; without any there is no blank. -/
def indentLexemes (depth : Nat) : List Lexeme :=
  if depth = 0 then [] else [⟨.blank, List.replicate depth '\t'⟩]

def SetRow.lexemes (r : SetRow) : List Lexeme :=
  indentLexemes r.depth ++ r.pieces.flatMap SetPiece.lexemes

def lineFeed : Lexeme := ⟨.token .newline, ['\n']⟩

/-- What follows a row: the end of its line and the rows below. -/
def belowLexemes (closed : Bool) : List SetRow → List Lexeme
  | [] => if closed then [lineFeed] else []
  | r :: rows =>
    (if r.apart then [lineFeed, lineFeed] else [lineFeed]) ++
      (r.lexemes ++ belowLexemes closed rows)

def pageLexemes (closed : Bool) : List SetRow → List Lexeme
  | [] => []
  | r :: rows => r.lexemes ++ belowLexemes closed rows

theorem SetPiece.render_word (x : SetPiece) :
    x.word.render = if x.spaced then ' ' :: x.piece.text else x.piece.text := rfl

theorem spell_piece (x : SetPiece) : Lexeme.spell x.lexemes = x.word.render := by
  cases h : x.spaced <;>
    simp [SetPiece.lexemes, Word.render, SetPiece.word, Lexeme.spell, SetPiece.lexeme, h]

theorem spell_pieces (xs : List SetPiece) :
    Lexeme.spell (xs.flatMap SetPiece.lexemes) = (xs.map SetPiece.word).flatMap Word.render := by
  induction xs with
  | nil => rfl
  | cons x xs ih =>
      rw [List.flatMap_cons, spell_append, spell_piece, ih, List.map_cons, List.flatMap_cons]

theorem spell_row (r : SetRow) : Lexeme.spell r.lexemes = r.pageRow.row.render := by
  have hindent : Lexeme.spell (indentLexemes r.depth) = List.replicate r.depth '\t' := by
    simp only [indentLexemes]
    split
    · rename_i h
      rw [h]
      rfl
    · simp [Lexeme.spell]
  rw [SetRow.lexemes, spell_append, hindent, spell_pieces]
  rfl

theorem spell_belowLexemes (closed : Bool) (rows : List SetRow) :
    Lexeme.spell (belowLexemes closed rows) =
      renderBelow (rows.map SetRow.pageRow) ++ if closed then ['\n'] else [] := by
  induction rows with
  | nil => cases closed <;> rfl
  | cons r rows ih =>
      simp only [belowLexemes, spell_append, ih, spell_row, renderBelow, List.map_cons,
        List.flatMap_cons, List.append_assoc]
      congr 1
      show _ = if r.apart = true then _ else _
      split <;> rfl

theorem spell_pageLexemes (closed : Bool) (rows : List SetRow) :
    Lexeme.spell (pageLexemes closed rows) = renderPage closed (rows.map SetRow.pageRow) := by
  cases rows with
  | nil => rfl
  | cons r rows =>
      rw [pageLexemes, spell_append, spell_row, spell_belowLexemes, ← List.append_assoc]
      rfl

end MethodSkeleton
