/-
# `MethodSkeleton.Proofs.Layout.Numerals` — which numbers the layout leaves in one piece

A numeral that begins where a lexeme ends, in front of a character that does not extend it, is read
as one token exactly if no sign stands in it (`readAsNumber_iff`).  The layout writes each token
of a line as it is, so such a numeral stands on its row unchanged; one with a sign does not, since a
sign that follows a number is set off from it.

That two tokens are neighbours on a row is taken from the text: tokens that follow one another
without a line break stand on one line (`Piece.exists_line`), and every line is set as a row.
-/
import Mathlib.Data.List.Chain
import MethodSkeleton.Proofs.Layout.FixedPoint
import MethodSkeleton.Proofs.Source.Numeral

namespace MethodSkeleton

/-! ## Neighbours on a row -/

theorem Piece.map_token_ofLexemes (before : Option Char) (xs : List Lexeme) :
    (ofLexemes before xs).map token = xs.filterMap Lexeme.token? := by
  induction xs generalizing before with
  | nil => rfl
  | cons x xs ih =>
      obtain ⟨is, text⟩ := x
      cases is with
      | blank => exact ih text.getLast?
      | fault why => exact ih text.getLast?
      | token kind => exact congrArg (RawToken.mk kind text :: ·) (ih text.getLast?)

/-- Tokens that follow one another stand on one line, if there is no line break among them. -/
theorem Piece.exists_line {mid : List Piece} (h : ∀ p ∈ mid, p.kind ≠ .newline)
    (ps qs : List Piece) : ∃ line ∈ lines (ps ++ (mid ++ qs)), mid <:+: line := by
  induction ps with
  | nil =>
      obtain ⟨line, rest, hl⟩ := List.exists_cons_of_ne_nil (lines_ne_nil qs)
      refine ⟨mid ++ line, ?_, (List.prefix_append mid line).isInfix⟩
      rw [List.nil_append, lines_append h hl]
      exact List.mem_cons_self
  | cons p ps ih =>
      obtain ⟨line, hline, hmid⟩ := ih
      rw [List.cons_append]
      by_cases hp : p.kind = .newline
      · rw [lines_cons_of_newline hp]
        exact ⟨line, List.mem_cons_of_mem _ hline, hmid⟩
      · obtain ⟨first, rest, hl, hcons⟩ := lines_cons_of_visible hp (ps ++ (mid ++ qs))
        rw [hcons]
        rw [hl] at hline
        rcases List.mem_cons.mp hline with rfl | hline
        · exact ⟨p :: line, List.mem_cons_self, List.infix_cons hmid⟩
        · exact ⟨line, List.mem_cons_of_mem _ hline, hmid⟩

/-- Every line that holds a token is set as a row. -/
theorem exists_setRow {line : List Piece} {lines : List (List Piece)} (h : line ∈ lines)
    (hne : line ≠ []) (openings : List Opening) (apart : Bool) :
    ∃ r ∈ setRows openings apart lines, r.pieces.map (·.piece) = line := by
  induction lines generalizing openings apart with
  | nil => cases h
  | cons first lines ih =>
      cases first with
      | nil => exact ih ((List.mem_cons.mp h).resolve_left hne) openings true
      | cons p ps =>
          rcases List.mem_cons.mp h with rfl | h
          · exact ⟨_, List.mem_cons_self, setPieces_map_piece _ _ _ _⟩
          · obtain ⟨r, hr, hpieces⟩ := ih h (arrangeRow openings (p :: ps)).2 false
            exact ⟨r, List.mem_cons_of_mem _ hr, hpieces⟩

/-- Lexemes of a source that are tokens, none of them a line break, stand side by side on one of its
rows. -/
theorem exists_row_of_lexemes {source : String} {xs ys : List Lexeme} {ts : List RawToken}
    (h : lexemes source.toList = xs ++ (ts.map fun t => ⟨.token t.kind, t.text⟩) ++ ys)
    (hts : ∀ t ∈ ts, t.kind ≠ .newline) (hne : ts ≠ []) :
    ∃ r ∈ setRowsOf source, ∃ before mid after, r.pieces = before ++ mid ++ after ∧
      mid.map (·.piece.token) = ts := by
  have htokens := Piece.map_token_ofLexemes none (lexemes source.toList)
  have hsame : (ts.map fun t => (⟨.token t.kind, t.text⟩ : Lexeme)).filterMap Lexeme.token? =
      ts := by
    rw [List.filterMap_map]
    exact List.filterMap_some
  rw [h, List.filterMap_append, List.filterMap_append, hsame, ← h, List.append_assoc] at htokens
  obtain ⟨ps, rest, hps, _, hrest⟩ := List.map_eq_append_iff.mp htokens
  obtain ⟨mid, qs, rfl, hmid, _⟩ := List.map_eq_append_iff.mp hrest
  have hvisible : ∀ p ∈ mid, p.kind ≠ .newline := fun p hp =>
    hts p.token (hmid ▸ List.mem_map_of_mem hp)
  obtain ⟨line, hline, front, back, hfront⟩ := Piece.exists_line hvisible ps qs
  rw [← hps] at hline
  have hnonempty : line ≠ [] := by
    rintro rfl
    have hmid' : mid = [] := (List.append_eq_nil_iff.mp (List.append_eq_nil_iff.mp hfront).1).2
    exact hne (by rw [← hmid, hmid', List.map_nil])
  obtain ⟨r, hr, hpieces⟩ := exists_setRow hline hnonempty [] false
  rw [← hfront] at hpieces
  obtain ⟨xs', after, hxs, hxs', _⟩ := List.map_eq_append_iff.mp hpieces
  obtain ⟨before, mid', rfl, _, hmid'⟩ := List.map_eq_append_iff.mp hxs'
  refine ⟨r, hr, before, mid', after, hxs, ?_⟩
  rw [← hmid, ← hmid', List.map_map]
  rfl

/-! ## Numerals in a text -/

/-- The text `before` ends where a lexeme of the whole ends. -/
def BeginsLexeme (before rest : List Char) : Prop :=
  ∃ xs, Lexeme.spell xs = before ∧ lexemes (before ++ rest) = xs ++ lexemes rest

/-- Behind `before`, the text `w` is read as a single number. -/
def ReadAsNumber (before w after : List Char) : Prop :=
  ∃ xs, Lexeme.spell xs = before ∧
    lexemes (before ++ (w ++ after)) = xs ++ ⟨.token .number, w⟩ :: lexemes after

theorem ReadAsNumber.spells {before w after : List Char} (h : ReadAsNumber before w after) :
    Spells .number w := by
  obtain ⟨xs, _, hxs⟩ := h
  obtain ⟨rest, hstand⟩ := (readsBack_lexemes (before ++ (w ++ after))).standsBefore
    ⟨.token .number, w⟩ (by simp [hxs])
  exact hstand.spells

/-- A numeral is read as a single number exactly if it has no sign. -/
theorem readAsNumber_iff {before w after : List Char} (hw : w ∈ numeral)
    (hbefore : BeginsLexeme before (w ++ after)) (hafter : NotExtended w after) :
    ReadAsNumber before w after ↔ ¬ IsSigned w := by
  refine ⟨fun h => h.spells.not_isSigned, fun hsign => ?_⟩
  obtain ⟨xs, hspell, hxs⟩ := hbefore
  rcases mem_numeral_cases hw with hnumber | ⟨front, s, d, more, rfl, _, hs, _⟩
  · exact ⟨xs, hspell, by rw [hxs, lexemes_unsignedNumeral hnumber hafter]⟩
  · refine absurd ?_ hsign
    rcases hs with rfl | rfl
    · exact .inl (by simp)
    · exact .inr (by simp)

/-- A row that holds the text as one of its words. -/
def HoldsWord (w : List Char) (r : Row) : Prop := ∃ spaced, ⟨spaced, w⟩ ∈ r.words

/-- A row that holds the text cut in two, with a space in front of the sign in it. -/
def HoldsSplit (w : List Char) (r : Row) : Prop :=
  ∃ front s rest before spaced after, w = front ++ s :: rest ∧ (s = '+' ∨ s = '-') ∧
    r.words = before ++ ⟨spaced, front⟩ :: ⟨true, [s]⟩ :: after

section
variable {before w after : List Char} {source : String}

theorem exists_row_holdsWord (hsource : source.toList = before ++ (w ++ after))
    (h : ReadAsNumber before w after) : ∃ r ∈ rowsOf source, HoldsWord w r.row := by
  obtain ⟨xs, _, hxs⟩ := h
  rw [← hsource] at hxs
  obtain ⟨r, hr, front, mid, back, hpieces, hmid⟩ :=
    @exists_row_of_lexemes source xs (lexemes after) [⟨.number, w⟩] (by simpa using hxs) (by simp)
      (by simp)
  obtain ⟨x, rfl, hx⟩ := List.map_eq_singleton_iff.mp hmid
  have htext : x.piece.text = w := congrArg RawToken.text hx
  refine ⟨r.pageRow, ?_, x.spaced, ?_⟩
  · rw [rowsOf_eq]
    exact List.mem_map_of_mem hr
  · show _ ∈ r.pieces.map SetPiece.word
    rw [hpieces, ← htext]
    exact List.mem_map_of_mem (f := SetPiece.word) (by simp)

/-- A sign behind a number is set off from it. -/
theorem exists_row_holdsSplit (hsource : source.toList = before ++ (w ++ after))
    (hw : w ∈ numeral) (hbefore : BeginsLexeme before (w ++ after)) (hsign : IsSigned w) :
    ∃ r ∈ rowsOf source, HoldsSplit w r.row := by
  obtain ⟨xs, _, hxs⟩ := hbefore
  rcases mem_numeral_cases hw with hnumber | ⟨number, s, d, more, rfl, hnumber, hs, hd⟩
  · exact absurd hsign hnumber.not_isSigned
  · have hlexemes : lexemes (number ++ s :: d :: more ++ after) =
        ⟨.token .number, number⟩ :: ⟨.token (signKind s), [s]⟩ ::
          lexemes (d :: (more ++ after)) := by
      rw [List.append_assoc, List.cons_append, List.cons_append]
      exact lexemes_signedNumeral hnumber hs hd
    rw [← hsource, hlexemes] at hxs
    have hkind : signKind s ≠ .newline ∧ (signKind s).isTight = false := by
      rcases hs with rfl | rfl <;> decide
    obtain ⟨r, hr, front, mid, back, hpieces, hmid⟩ :=
      @exists_row_of_lexemes source xs (lexemes (d :: (more ++ after)))
        [⟨.number, number⟩, ⟨signKind s, [s]⟩] (by simpa using hxs) (by simp [hkind.1]) (by simp)
    obtain ⟨x, mid, rfl, hx, hmid⟩ := List.map_eq_cons_iff.mp hmid
    obtain ⟨y, rfl, hy⟩ := List.map_eq_singleton_iff.mp hmid
    have hspaced : y.spaced = true := by
      have hjoined := (setRowsOf_laid source r hr).1.joined
      rw [hpieces, List.append_assoc, List.isChain_append] at hjoined
      have hxy := (List.isChain_cons_cons.mp hjoined.2.1).1
      have hx : x.piece.kind = .number := congrArg RawToken.kind hx
      have hy : y.piece.kind = signKind s := congrArg RawToken.kind hy
      rw [hx, hy] at hxy
      by_contra hglued
      have htight := hxy (by simp) (Bool.not_eq_true _ ▸ hglued)
      rw [hkind.2] at htight
      cases htight
    refine ⟨r.pageRow, ?_, number, s, d :: more, front.map SetPiece.word, x.spaced,
      back.map SetPiece.word, rfl, hs, ?_⟩
    · rw [rowsOf_eq]
      exact List.mem_map_of_mem hr
    · have hxtext : x.piece.text = number := congrArg RawToken.text hx
      have hytext : y.piece.text = [s] := congrArg RawToken.text hy
      show r.pieces.map SetPiece.word = _
      rw [hpieces, ← hxtext, ← hytext, ← hspaced]
      simp [SetPiece.word]

end

/-- **Which numerals are left in one piece.**  A numeral that begins where a lexeme ends, and that
nothing behind it extends, is read as a single number exactly if no sign stands in it.  If the text
around it is laid out, then a numeral without a sign is written as it is, as a word of a row, and
one with a sign is written with a space in front of the sign. -/
theorem numeral_one_token_iff {before w after : List Char} (hw : w ∈ numeral)
    (hbefore : BeginsLexeme before (w ++ after)) (hafter : NotExtended w after) :
    (ReadAsNumber before w after ↔ ¬ IsSigned w) ∧
      ∀ source out, source.toList = before ++ (w ++ after) →
        reformatBytes source.toUTF8 = .ok out →
          out.toList = renderPage ((piecesOf source).any (·.kind == .newline)) (rowsOf source) ∧
            (¬ IsSigned w → ∃ r ∈ rowsOf source, HoldsWord w r.row) ∧
            (IsSigned w → ∃ r ∈ rowsOf source, HoldsSplit w r.row) := by
  have hread := readAsNumber_iff hw hbefore hafter
  refine ⟨hread, fun source out hsource hout => ⟨?_, fun hsign => ?_, fun hsign => ?_⟩⟩
  · rw [reformatBytes_toUTF8] at hout
    exact toList_eq_renderPage hout
  · exact exists_row_holdsWord hsource (hread.mpr hsign)
  · exact exists_row_holdsSplit hsource hw hbefore hsign

theorem signed_mem_numeral : "1e+5".toList ∈ numeral :=
  mem_numeral_iff.mpr ⟨['1'], .number (by decide) (by decide), ['e', '+', '5'],
    .inr (mem_signedExponent_iff.mpr
      ⟨'e', '+', '5', [], [], by decide, by decide, by decide, .inl (by decide), by simp,
        .inl rfl⟩),
    by decide⟩

/-- At `1e+5`, with a text around it. -/
theorem numeral_one_token_iff_signed :
    ("1e+5".toList ∈ numeral ∧ BeginsLexeme "n := ".toList ("1e+5".toList ++ "\n".toList) ∧
        NotExtended "1e+5".toList "\n".toList) ∧
      ¬ ReadAsNumber "n := ".toList "1e+5".toList "\n".toList ∧
      reformatBytes "n := 1e+5\n".toUTF8 = .ok "n := 1e + 5\n" ∧
      ∃ r ∈ rowsOf "n := 1e+5\n", HoldsSplit "1e+5".toList r.row := by
  have hbefore : BeginsLexeme "n := ".toList ("1e+5".toList ++ "\n".toList) :=
    ⟨[⟨.token .identifier, ['n']⟩, ⟨.blank, [' ']⟩, ⟨.token .operator, [':', '=']⟩,
      ⟨.blank, [' ']⟩], by decide, by decide⟩
  have hafter : NotExtended "1e+5".toList "\n".toList := notExtended_cons _ (by decide) []
  have hout : reformatBytes "n := 1e+5\n".toUTF8 = .ok "n := 1e + 5\n" := by
    rw [reformatBytes_toUTF8]
    decide
  obtain ⟨hread, hlaid⟩ := numeral_one_token_iff signed_mem_numeral hbefore hafter
  obtain ⟨_, _, hsplit⟩ := hlaid _ _ (by decide) hout
  exact ⟨⟨signed_mem_numeral, hbefore, hafter⟩, fun h => hread.mp h (by decide), hout,
    hsplit (by decide)⟩

/-- Not every numeral is read as a single number: `1e+5` is none even if nothing stands around
it. -/
theorem not_numeral_one_token : ¬ ∀ before w after, w ∈ numeral →
    BeginsLexeme before (w ++ after) → NotExtended w after → ReadAsNumber before w after := by
  intro h
  have hread := h [] _ _ signed_mem_numeral ⟨[], rfl, rfl⟩ (notExtended_nil _)
  exact hread.spells.not_isSigned (by decide)

end MethodSkeleton
