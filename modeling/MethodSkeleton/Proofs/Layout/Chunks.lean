/-
# `MethodSkeleton.Proofs.Layout.Chunks` — texts that are laid out one after the other

If two texts can be laid out and a line feed is put between them, then the whole can be laid out
and what is written for it is what is written for each (`reformatBytes_append`): from the lines of
the first nothing is carried over into the lines of the second.

The layout carries three things from line to line, and each of them is as at the start.  What is
open behind a line is followed here by the kinds of its delimiters alone (`bracketsBehind`), which
neither the roles nor the spaces on the line can change; the delimiter rules follow the same kinds,
and where they find no fault nothing is left open (`openAfter?_brackets`).  The last token only
serves to tell that a comma lacks an element, and no token in front lets fewer commas pass than any
other.  That an empty line has been passed is forgotten at the next line that holds a token.
-/
import MethodSkeleton.Proofs.Layout.FixedPoint
import MethodSkeleton.Proofs.Layout.Verbatim

namespace MethodSkeleton

/-! ## Tokens and lines -/

theorem Piece.ofLexemes_congr {before before' : Option Char}
    (h : setsOff before = setsOff before') (xs : List Lexeme) :
    ofLexemes before xs = ofLexemes before' xs := by
  cases xs with
  | nil => rfl
  | cons x xs => rw [ofLexemes, ofLexemes, h]

/-- A line break ends the token in front of it like the end of the text, and sets nothing off from
itself. -/
theorem Spells.newline_ends {text : List Char} (h : Spells .newline text) :
    Piece.endsAt text.head? = true ∧ Piece.setsOff text.getLast? = false := by
  cases h with
  | lineFeed => exact ⟨rfl, rfl⟩
  | carriageReturn => exact ⟨rfl, rfl⟩
  | returnAndFeed => exact ⟨rfl, rfl⟩
  | fixed he => cases punctuation_isFixed he

/-- The tokens of a text on both sides of a line break are those of two texts. -/
theorem Piece.ofLexemes_append_newline {text : List Char} (h : Spells .newline text)
    (before : Option Char) (xs ys : List Lexeme) : ∃ p, p.kind = .newline ∧
      ofLexemes before (xs ++ ⟨.token .newline, text⟩ :: ys) =
        ofLexemes before xs ++ p :: ofLexemes none ys := by
  obtain ⟨hends, hoff⟩ := h.newline_ends
  induction xs generalizing before with
  | nil =>
      refine ⟨⟨.newline, text, setsOff before, endsAt (firstChar? ys)⟩, rfl, ?_⟩
      have hbehind : ofLexemes text.getLast? ys = ofLexemes none ys := ofLexemes_congr hoff ys
      rw [← hbehind]
      rfl
  | cons x xs ih =>
      obtain ⟨p, hp, hxs⟩ := ih x.text.getLast?
      have hfirst : endsAt (firstChar? (xs ++ ⟨.token .newline, text⟩ :: ys)) =
          endsAt (firstChar? xs) := by
        cases xs with
        | nil => exact hends
        | cons y xs => rfl
      refine ⟨p, hp, ?_⟩
      rw [List.cons_append, ofLexemes, ofLexemes, hxs, hfirst]
      cases x.is <;> rfl

theorem Piece.lines_append_newline {p : Piece} (hp : p.kind = .newline) (ps qs : List Piece) :
    lines (ps ++ p :: qs) = lines ps ++ lines qs := by
  induction ps with
  | nil => exact lines_cons_of_newline hp
  | cons q ps ih =>
      by_cases hk : q.kind = .newline
      · rw [List.cons_append, lines_cons_of_newline hk, lines_cons_of_newline hk, ih,
          List.cons_append]
      · obtain ⟨line, rest, hl, hcons⟩ := lines_cons_of_visible hk ps
        obtain ⟨line', rest', hl', hcons'⟩ := lines_cons_of_visible hk (ps ++ p :: qs)
        rw [ih, hl, List.cons_append] at hl'
        cases hl'
        rw [List.cons_append, hcons', hcons, List.cons_append]

/-! ## What is left open -/

/-- The pairs that are open behind a token: the innermost first. -/
def bracketsBehind (brackets : List Bracket) (kind : Kind) : List Bracket :=
  match kind.opens? with
  | some b => b :: brackets
  | none => if kind.closes?.isSome then brackets.tail else brackets

theorem openingsBehind_brackets (openings : Openings) (prev : Option Written) (p : Piece)
    (spaced : Bool) (next : Option Kind) :
    (openingsBehind openings prev p spaced next).brackets =
      bracketsBehind openings.brackets p.kind := by
  rw [openingsBehind, bracketsBehind]
  cases ho : p.kind.opens? with
  | some b =>
      rw [Option.isSome_some, if_pos rfl, Openings.brackets_push, roleOf_bracket ho]
  | none =>
      rw [Option.isSome_none, if_neg Bool.false_ne_true]
      split
      · exact Openings.brackets_pop openings
      · rfl

theorem arrangeWords_brackets (traits : LineTraits) (openings : Openings) (prev : Option Written)
    (ps : List Piece) : (arrangeWords traits openings prev ps).2.brackets =
      (ps.map (·.kind)).foldl bracketsBehind openings.brackets := by
  induction ps generalizing openings prev with
  | nil => rfl
  | cons p ps ih =>
      rw [List.map_cons, List.foldl_cons, ← openingsBehind_brackets openings prev p
        (spaceBefore traits openings prev p (ps.head?.map (·.kind))) (ps.head?.map (·.kind))]
      exact ih _ _

/-- The delimiters that are open behind lines. -/
def openBehindLines (openings : List Opening) (lines : List (List Piece)) : List Opening :=
  lines.foldl (fun openings line => (arrangeRow openings line).2) openings

theorem openBehindLines_brackets (openings : List Opening) (lines : List (List Piece)) :
    (openBehindLines openings lines).map (·.role.bracket) =
      (lines.flatten.map (·.kind)).foldl bracketsBehind (openings.map (·.role.bracket)) := by
  induction lines generalizing openings with
  | nil => rfl
  | cons line lines ih =>
      have hline : (arrangeRow openings line).2.map (·.role.bracket) =
          (line.map (·.kind)).foldl bracketsBehind (openings.map (·.role.bracket)) :=
        (Openings.brackets_endLine _).trans (arrangeWords_brackets _ ⟨openings, []⟩ none line)
      rw [List.flatten_cons, List.map_append, List.foldl_append, ← hline]
      exact ih _

/-- The stack of the delimiter rules holds the same pairs. -/
theorem openAfter?_brackets {opened final : List (Located Bracket)} {ts : List (Located Kind)}
    (h : openAfter? opened ts = some final) :
    (ts.map (·.value)).foldl bracketsBehind (opened.map (·.value)) = final.map (·.value) := by
  induction ts generalizing opened with
  | nil =>
      cases h
      rfl
  | cons t ts ih =>
      obtain ⟨opened', ht, hrest⟩ := Option.bind_eq_some_iff.mp h
      have hstep : bracketsBehind (opened.map (·.value)) t.value = opened'.map (·.value) := by
        rw [bracketsBehind]
        cases ho : t.value.opens? with
        | some b =>
            rw [openBehind?_of_opens? ho] at ht
            cases ht
            rfl
        | none =>
            cases hc : t.value.closes? with
            | none =>
                rw [openBehind?_of_other ho hc] at ht
                cases ht
                rfl
            | some b =>
                obtain ⟨o, rfl, _⟩ := (openBehind?_of_closes?_iff hc).mp ht
                rfl
      rw [List.map_cons, List.foldl_cons, hstep]
      exact ih hrest

theorem foldl_bracketsBehind_filter (brackets : List Bracket) (kinds : List Kind) :
    (kinds.filter fun kind => !kind.isComment).foldl bracketsBehind brackets =
      kinds.foldl bracketsBehind brackets := by
  induction kinds generalizing brackets with
  | nil => rfl
  | cons kind kinds ih =>
      by_cases hc : kind.isComment = true
      · have hstep : bracketsBehind brackets kind = brackets := by
          revert hc
          cases kind <;> simp [Kind.isComment, bracketsBehind, Kind.opens?, Kind.closes?]
        rw [List.filter_cons_of_neg (by simp [hc]), ih, List.foldl_cons, hstep]
      · rw [List.filter_cons_of_pos (by simpa using hc), List.foldl_cons, List.foldl_cons, ih]

/-- Behind the lines of a source that is laid out nothing is left open. -/
theorem openBehindLines_of_reformat {source out : String} (h : reformat source = .ok out) :
    openBehindLines [] (Piece.lines (piecesOf source)) = [] := by
  obtain ⟨ts, hts⟩ := rawTokens_of_reformat h
  have hbrackets := openBehindLines_brackets [] (Piece.lines (piecesOf source))
  rw [← foldl_bracketsBehind_filter, ← significant_eq_lines hts] at hbrackets
  have hrun := openAfter?_brackets (openAfter?_of_reformat h hts)
  exact List.map_eq_nil_iff.mp (hbrackets.trans hrun)

/-! ## Rows -/

/-- Lines the last of which holds a token carry over to others only what they leave open. -/
theorem arrangeLines_append {above : List (List Piece)} {last : List Piece}
    (hlast : above.getLast? = some last) (hne : last ≠ []) (openings : List Opening)
    (apart : Bool) (below : List (List Piece)) : arrangeLines openings apart (above ++ below) =
      arrangeLines openings apart above ++
        arrangeLines (openBehindLines openings above) false below := by
  induction above generalizing openings apart with
  | nil => cases hlast
  | cons line above ih =>
      cases above with
      | nil =>
          obtain rfl : line = last := Option.some.inj hlast
          obtain ⟨p, ps, rfl⟩ := List.exists_cons_of_ne_nil hne
          rfl
      | cons next above =>
          rw [List.getLast?_cons_cons] at hlast
          cases line with
          | nil => exact ih hlast openings true
          | cons p ps => exact congrArg _ (ih hlast _ false)

theorem arrangeLines_ne_nil {lines : List (List Piece)} {line : List Piece} (h : line ∈ lines)
    (hne : line ≠ []) (openings : List Opening) (apart : Bool) :
    arrangeLines openings apart lines ≠ [] := by
  induction lines generalizing openings apart with
  | nil => cases h
  | cons first lines ih =>
      cases first with
      | nil =>
          have hmem : line ∈ lines := (List.mem_cons.mp h).resolve_left hne
          exact ih hmem openings true
      | cons p ps => exact List.cons_ne_nil _ _

/-- Rows of which the lower ones follow the upper ones without an empty line. -/
theorem renderPage_append {above below : List PageRow} {r : PageRow} (ha : above ≠ [])
    (hr : r.apart = false) : renderPage true (above ++ r :: below) =
      renderPage false above ++ '\n' :: (renderPage false (r :: below) ++ ['\n']) := by
  obtain ⟨first, above, rfl⟩ := List.exists_cons_of_ne_nil ha
  simp [renderPage, renderBelow, hr]

/-! ## Faults -/

/-- Tokens without a fault leave nothing open, and what follows them is judged behind the last of
them. -/
theorem nestingFault?_append {opened : List (Located Bracket)} {last : Option Kind}
    {ts : List (Located Kind)} (h : nestingFault? opened last ts = none) :
    ∃ last', ∀ us, nestingFault? opened last (ts ++ us) = nestingFault? [] last' us := by
  induction ts generalizing opened last with
  | nil =>
      cases opened with
      | nil => exact ⟨last, fun us => rfl⟩
      | cons o outer => cases h
  | cons t ts ih =>
      cases hf : tokenFault? opened last t with
      | some cause =>
          rw [nestingFault?_of_fault hf] at h
          cases h
      | none =>
          obtain ⟨opened', _, hrun⟩ := openBehind?_of_no_fault hf
          rw [hrun] at h
          obtain ⟨last', ih⟩ := ih h
          exact ⟨last', fun us => (hrun (ts ++ us)).trans (ih us)⟩

/-- At the start a comma lacks an element for certain, so behind a token no more is at fault. -/
theorem nestingFault?_of_start {us : List (Located Kind)} (h : nestingFault? [] none us = none)
    (last : Option Kind) : nestingFault? [] last us = none := by
  cases us with
  | nil => exact h
  | cons u us =>
      by_cases hu : u.value = .comma
      · have hc : u.value = .comma ∧ lacksElement none = true := ⟨hu, rfl⟩
        rw [nestingFault?, if_pos hc] at h
        cases h
      · rw [nestingFault?, if_neg fun hc => hu hc.1] at h ⊢
        exact h

/-! ## Two texts -/

/-- Behind the last line break of a source, or anywhere if there is none, stands a token. -/
def LastLineHoldsToken (source : String) : Prop :=
  ∃ ts line, rawTokens source = .ok ts ∧ (tokenLines ts).getLast? = some line ∧ line ≠ []

/-- In front of the first line break of a source, or anywhere if there is none, stands a token. -/
def FirstLineHoldsToken (source : String) : Prop :=
  ∃ ts line, rawTokens source = .ok ts ∧ (tokenLines ts).head? = some line ∧ line ≠ []

/-- A text without the line feed at its end, if there is one. -/
def stripLineFeed (text : String) : String :=
  if text.toList.getLast? = some '\n' then String.ofList text.toList.dropLast else text

section
variable {source out : String}

theorem LastLineHoldsToken.lines (h : LastLineHoldsToken source) :
    ∃ line, (Piece.lines (piecesOf source)).getLast? = some line ∧ line ≠ [] := by
  obtain ⟨ts, line, hts, hlast, hne⟩ := h
  refine ⟨line.map (Piece.ofToken source.toList), ?_, by simpa using hne⟩
  rw [piecesOf_eq hts, lines_map, List.getLast?_map, hlast]
  rfl

theorem FirstLineHoldsToken.lines (h : FirstLineHoldsToken source) :
    ∃ line, (Piece.lines (piecesOf source)).head? = some line ∧ line ≠ [] := by
  obtain ⟨ts, line, hts, hfirst, hne⟩ := h
  refine ⟨line.map (Piece.ofToken source.toList), ?_, by simpa using hne⟩
  rw [piecesOf_eq hts, lines_map, List.head?_map, hfirst]
  rfl

/-- A text whose last line holds a token does not end in a line break. -/
theorem LastLineHoldsToken.getLast?_ne (h : LastLineHoldsToken source) :
    ∀ x, (lexemes source.toList).getLast? = some x → x.is ≠ .token .newline := by
  rintro ⟨is, text⟩ hx rfl
  obtain ⟨line, hlast, hne⟩ := h.lines
  obtain ⟨front, hfront⟩ := List.getLast?_eq_some_iff.mp hx
  have hspells : Spells .newline text := by
    have hmem : ⟨.token .newline, text⟩ ∈ lexemes source.toList := List.mem_of_getLast? hx
    obtain ⟨rest, hstand⟩ := (readsBack_lexemes source.toList).standsBefore _ hmem
    exact hstand.spells
  obtain ⟨p, hp, hpieces⟩ := Piece.ofLexemes_append_newline hspells none front []
  rw [piecesOf, hfront, hpieces, Piece.lines_append_newline hp] at hlast
  have hnil : some ([] : List Piece) = some line := by
    rw [← hlast]
    simp [Piece.ofLexemes, Piece.lines]
  exact hne (Option.some.inj hnil).symm

/-- Without its last line feed, what is written for a source is its rows. -/
theorem stripLineFeed_of_reformat (h : reformat source = .ok out) :
    (stripLineFeed out).toList = renderPage false (rowsOf source) := by
  obtain ⟨ts, hts⟩ := rawTokens_of_reformat h
  obtain ⟨ws, _, _, hfirm, hpage⟩ := exists_firm_page hts
  have hout := toList_eq_renderPage h
  rw [hpage] at hout ⊢
  rw [stripLineFeed, hout]
  split
  · rename_i hended
    obtain ⟨hclosed, hne⟩ := (writtenPage_getLast?_iff hfirm).mp hended
    obtain ⟨w, ws, rfl⟩ := List.exists_cons_of_ne_nil hne
    rw [hclosed, String.toList_ofList]
    simp [writtenPage]
  · rename_i hended
    rw [hout]
    cases ws with
    | nil => rfl
    | cons w ws =>
        cases hc : (piecesOf source).any (·.kind == .newline) with
        | false => rfl
        | true =>
            exact absurd ((writtenPage_getLast?_iff hfirm).mpr ⟨hc, List.cons_ne_nil w ws⟩) hended

end

section
variable {s t out out' : String}

theorem lexemes_append_lineFeed (hs : reformat s = .ok out) (hlast : LastLineHoldsToken s) :
    lexemes (s ++ "\n" ++ t).toList = lexemes s.toList ++ lineFeed :: lexemes t.toList := by
  obtain ⟨ts, hts⟩ := rawTokens_of_reformat hs
  obtain ⟨hread, _⟩ := rawTokens_visible_iff.mp ⟨ts, hts, rfl⟩
  have hsplit := (readsBack_lexemes s.toList).lexemes_append_lineFeed hread hlast.getLast?_ne
    t.toList
  rw [spell_lexemes] at hsplit
  rw [String.toList_append, String.toList_append, List.append_assoc]
  exact hsplit

/-- The delimiter rules find no fault in either text, so they find none in both. -/
theorem layoutFault?_append_lineFeed (hs : reformat s = .ok out) (ht : reformat t = .ok out')
    (hlast : LastLineHoldsToken s) :
    layoutFault? (Lexeme.locate 0 (lexemes (s ++ "\n" ++ t).toList)) = none := by
  obtain ⟨ts, hts⟩ := rawTokens_of_reformat hs
  obtain ⟨us, hus⟩ := rawTokens_of_reformat ht
  obtain ⟨hreads, hvis⟩ := rawTokens_visible_iff.mp ⟨ts, hts, rfl⟩
  obtain ⟨hreadt, hvis'⟩ := rawTokens_visible_iff.mp ⟨us, hus, rfl⟩
  have hlexemes : lexemes (s ++ "\n" ++ t).toList = _ := lexemes_append_lineFeed hs hlast
  have hread : ∀ x ∈ lexemes (s ++ "\n" ++ t).toList, x.Readable := by
    rw [hlexemes, List.forall_mem_append, List.forall_mem_cons]
    exact ⟨hreads, fun why h => (by cases h), hreadt⟩
  obtain ⟨vs, hvs, hvisible⟩ := rawTokens_visible_iff.mpr ⟨hread, rfl⟩
  rw [hlexemes, List.filterMap_append, List.filterMap_cons_none rfl, hvis, hvis'] at hvisible
  have hkinds : (significant vs).map (·.value) =
      (significant ts ++ significant us).map (·.value) := by
    rw [List.map_append, significant_map_value, significant_map_value, significant_map_value,
      hvisible, List.map_append, List.filter_append]
  rw [layoutFault?_eq, hvs]
  refine nestingFault?_none_congr rfl hkinds ?_
  obtain ⟨last, happend⟩ := nestingFault?_append (nestingFault?_of_reformat hs hts)
  rw [happend]
  exact nestingFault?_of_start (nestingFault?_of_reformat ht hus) last

/-- The rows of both texts are the rows of each. -/
theorem rowsOf_append_lineFeed (hs : reformat s = .ok out) (hlast : LastLineHoldsToken s) :
    (piecesOf (s ++ "\n" ++ t)).any (·.kind == .newline) = true ∧
      rowsOf (s ++ "\n" ++ t) = rowsOf s ++ rowsOf t := by
  obtain ⟨p, hp, hpieces⟩ := Piece.ofLexemes_append_newline .lineFeed none (lexemes s.toList)
    (lexemes t.toList)
  have hpieces : piecesOf (s ++ "\n" ++ t) = piecesOf s ++ p :: piecesOf t := by
    rw [piecesOf, lexemes_append_lineFeed hs hlast]
    exact hpieces
  obtain ⟨line, hline, hne⟩ := hlast.lines
  constructor
  · rw [hpieces]
    simp [hp]
  · rw [rowsOf, hpieces, Piece.lines_append_newline hp, arrangeLines_append hline hne,
      openBehindLines_of_reformat hs]
    rfl

/-- **Texts are laid out one after the other.**  If two texts can be laid out, the last line of the
first holds a token and so does the first line of the second, then with a line feed between them
both can be laid out together, and what is written is what is written for each. -/
theorem reformatBytes_append (hs : reformatBytes s.toUTF8 = .ok out)
    (ht : reformatBytes t.toUTF8 = .ok out') (hlast : LastLineHoldsToken s)
    (hfirst : FirstLineHoldsToken t) : reformatBytes (s ++ "\n" ++ t).toUTF8 =
      .ok (stripLineFeed out ++ "\n" ++ stripLineFeed out' ++ "\n") := by
  rw [reformatBytes_toUTF8] at hs ht ⊢
  obtain ⟨hclosed, hrows⟩ := rowsOf_append_lineFeed (t := t) hs hlast
  have habove : rowsOf s ≠ [] := by
    obtain ⟨line, hline, hne⟩ := hlast.lines
    exact arrangeLines_ne_nil (List.mem_of_getLast? hline) hne [] false
  have hbelow : ∃ r rows, rowsOf t = r :: rows ∧ r.apart = false := by
    obtain ⟨line, hline, hne⟩ := hfirst.lines
    obtain ⟨rest, hlines⟩ := List.head?_eq_some_iff.mp hline
    obtain ⟨p, ps, rfl⟩ := List.exists_cons_of_ne_nil hne
    rw [rowsOf, hlines]
    exact ⟨_, _, rfl, rfl⟩
  obtain ⟨r, rows, hr, hapart⟩ := hbelow
  have hpage : layout (piecesOf (s ++ "\n" ++ t)) =
      renderPage false (rowsOf s) ++ '\n' :: (renderPage false (rowsOf t) ++ ['\n']) := by
    have hlayout : layout (piecesOf (s ++ "\n" ++ t)) =
      renderPage _ (rowsOf (s ++ "\n" ++ t)) := rfl
    rw [hlayout, hclosed, hrows, hr, renderPage_append habove hapart]
  refine reformat_ok_iff.mpr ⟨layoutFault?_append_lineFeed hs ht hlast, ?_⟩
  rw [← String.toList_inj, String.toList_ofList]
  show _ = layout (piecesOf (s ++ "\n" ++ t))
  rw [hpage, ← stripLineFeed_of_reformat hs, ← stripLineFeed_of_reformat ht]
  simp

end

/-- A block that is closed on the last line, and a line behind it. -/
theorem reformatBytes_append_block :
    reformatBytes "if a \x7b\n  b\n\x7d".toUTF8 = .ok "if a \x7b\n\tb\n\x7d\n" ∧
      reformatBytes "  x  *y".toUTF8 = .ok "x *y" ∧
      LastLineHoldsToken "if a \x7b\n  b\n\x7d" ∧ FirstLineHoldsToken "  x  *y" ∧
      reformatBytes ("if a \x7b\n  b\n\x7d" ++ "\n" ++ "  x  *y").toUTF8 =
        .ok (stripLineFeed "if a \x7b\n\tb\n\x7d\n" ++ "\n" ++ stripLineFeed "x *y" ++ "\n") := by
  have hs : reformatBytes "if a \x7b\n  b\n\x7d".toUTF8 = .ok "if a \x7b\n\tb\n\x7d\n" := by
    rw [reformatBytes_toUTF8]
    decide
  have ht : reformatBytes "  x  *y".toUTF8 = .ok "x *y" := by
    rw [reformatBytes_toUTF8]
    decide
  have hlast : LastLineHoldsToken "if a \x7b\n  b\n\x7d" :=
    ⟨_, _, rfl, rfl, List.cons_ne_nil _ _⟩
  have hfirst : FirstLineHoldsToken "  x  *y" := ⟨_, _, rfl, rfl, List.cons_ne_nil _ _⟩
  exact ⟨hs, ht, hlast, hfirst, reformatBytes_append hs ht hlast hfirst⟩

end MethodSkeleton
