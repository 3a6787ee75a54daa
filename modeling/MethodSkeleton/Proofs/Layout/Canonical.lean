/-
# `MethodSkeleton.Proofs.Layout.Canonical` — pages that are laid out already

A page that was not made by laying out some source is given by its rows.  Whether it is what
the layout makes of its tokens is found by walking along each row: the walk knows what is open
and what was written last (`Spot`), and a token is admitted if the layout sets it as the row
does, if the delimiter rules allow it, and if nothing behind it is read as a part of it
(`Spot.admits`).  A walk over a row put together from parts is put together from their walks
(`Spot.walk_append`), and what it asks of a token is asked of its kind, but for the few
questions about words.

A page whose rows can be walked is read back and laid out as it is (`AllSettled.reformat_eq`).
It is the layout of its own lines, so laying it out again changes nothing, as for any laid-out
page.
-/
import MethodSkeleton.Proofs.Layout.FixedPoint
import MethodSkeleton.Proofs.Source.Fusing

namespace MethodSkeleton

/-! ## Walking along a row -/

/-- Things without their places. -/
def unplaced {α : Type} (as : List α) : List (Located α) := as.map (⟨Span.at 0, ·⟩)

/-- The kinds that the delimiter rules look at. -/
def delimiting (xs : List SetPiece) : List Kind :=
  (xs.map (·.piece.kind)).filter (!·.isComment)

/-- A place on a line: what is open there, and what was written last. -/
structure Spot where
  openings : Openings
  prev : Option Written

namespace Spot

/-- The start of a line in front of which `openings` are open. -/
def start (openings : List Opening) : Spot := ⟨⟨openings, []⟩, none⟩

/-- The place behind the token `x`, in front of a token of the kind `next`. -/
def behind (s : Spot) (x : SetPiece) (next : Option Kind) : Spot where
  openings := openingsBehind s.openings s.prev x.piece x.spaced next
  prev := some (writtenAs s.openings s.prev x.piece x.spaced)

/-- Whether the delimiter rules allow a token of this kind. -/
def nests (s : Spot) (kind : Kind) : Bool :=
  match kind.closes? with
  | some b => s.openings.brackets.head? == some b
  | none => kind != .comma || s.prev.any fun w => !w.kind.isComment && !lacksElement (some w.kind)

end Spot

/-- Whether nothing behind the token is read as a part of it; `next` is the token behind it on
the row. -/
def SetPiece.standsApart (x : SetPiece) (next : Option SetPiece) : Bool :=
  x.piece.kind.endsItself || next.all fun y => y.spaced || y.piece.kind.beginsAfresh

namespace Spot

/-- Whether the token `x`, with `next` behind it, is set here as it is. -/
def admits (traits : LineTraits) (s : Spot) (x : SetPiece) (next : Option SetPiece) : Bool :=
  spaceBefore traits s.openings s.prev x.piece (next.map (·.piece.kind)) == x.spaced &&
    s.nests x.piece.kind && x.standsApart next

/-- The place behind tokens that are all set as they are, with `next` behind them. -/
def walk (traits : LineTraits) : Spot → List SetPiece → Option SetPiece → Option Spot
  | s, [], _ => some s
  | s, x :: xs, next =>
    let behind := xs.head?.or next
    if s.admits traits x behind then
      walk traits (s.behind x (behind.map (·.piece.kind))) xs next
    else none

variable {traits : LineTraits} {s s' : Spot} {x : SetPiece} {xs ys : List SetPiece}
  {next : Option SetPiece}

theorem walk_cons_eq_some_iff : walk traits s (x :: xs) next = some s' ↔
    s.admits traits x (xs.head?.or next) = true ∧
      walk traits (s.behind x ((xs.head?.or next).map (·.piece.kind))) xs next = some s' := by
  simp only [walk, Option.ite_none_right_eq_some]

theorem admits_iff : s.admits traits x next = true ↔
    spaceBefore traits s.openings s.prev x.piece (next.map (·.piece.kind)) = x.spaced ∧
      s.nests x.piece.kind = true ∧ x.standsApart next = true := by
  simp [admits, and_assoc]

theorem walk_append : walk traits s (xs ++ ys) next =
    (walk traits s xs (ys.head?.or next)).bind fun s => walk traits s ys next := by
  induction xs generalizing s with
  | nil => rfl
  | cons x xs ih =>
      have hhead : (xs ++ ys).head?.or next = xs.head?.or (ys.head?.or next) := by
        cases xs <;> rfl
      simp only [List.cons_append, walk, hhead, ih]
      split <;> rfl

/-- A walk put together from two. -/
theorem walk_trans {mid : Spot} (hx : walk traits s xs (ys.head?.or next) = some mid)
    (hy : walk traits mid ys next = some s') : walk traits s (xs ++ ys) next = some s' := by
  rw [walk_append, hx]
  exact hy

/-- Tokens that can be walked are set as they are. -/
theorem setPieces_of_walk (h : walk traits s xs none = some s') :
    setPieces traits s.openings s.prev (xs.map (·.piece)) = xs ∧
      (arrangeWords traits s.openings s.prev (xs.map (·.piece))).2 = s'.openings := by
  induction xs generalizing s with
  | nil =>
      cases h
      exact ⟨rfl, rfl⟩
  | cons x xs ih =>
      obtain ⟨hadmits, hrest⟩ := walk_cons_eq_some_iff.mp h
      obtain ⟨hspaced, _, _⟩ := admits_iff.mp hadmits
      have hnext : (xs.head?.or none).map (·.piece.kind) =
          (xs.map (·.piece)).head?.map (·.kind) := by
        cases xs <;> rfl
      rw [hnext] at hspaced hrest
      obtain ⟨hset, hopen⟩ := ih hrest
      constructor
      · simp only [List.map_cons, setPieces, hspaced]
        exact congrArg _ hset
      · simp only [List.map_cons, arrangeWords, hspaced]
        exact hopen

/-- Nothing on a row that can be walked is read together. -/
theorem nothingFuses_of_walk (hx : ∀ x ∈ xs, x.piece.IsToken)
    (h : walk traits s xs none = some s') : NothingFuses (xs.map SetPiece.word) := by
  induction xs generalizing s with
  | nil => exact nothingFuses_nil
  | cons x xs ih =>
      obtain ⟨hadmits, hrest⟩ := walk_cons_eq_some_iff.mp h
      obtain ⟨_, _, hapart⟩ := admits_iff.mp hadmits
      obtain ⟨htoken, htokens⟩ := List.forall_mem_cons.mp hx
      rw [List.map_cons, nothingFuses_cons_iff]
      refine ⟨?_, ih htokens hrest⟩
      rcases (Bool.or_eq_true _ _).mp hapart with hends | hafresh
      · exact not_fuses_of_endsItself htoken.spells hends
      · obtain ⟨c, tail, ht, _⟩ := htoken.spells.head_eq htoken.visible
        refine not_fuses_of_rest (by simp [SetPiece.word, ht]) ?_
        cases xs with
        | nil => rfl
        | cons y ys =>
            have hy : y.spaced = true ∨ y.piece.kind.beginsAfresh = true :=
              (Bool.or_eq_true _ _).mp hafresh
            rw [List.map_cons, List.flatMap_cons, SetPiece.render_word]
            cases hs : y.spaced with
            | true =>
                rw [if_pos rfl]
                exact (show goesOn ' ' = false by decide)
            | false =>
                obtain ⟨d, more, hd, hgoes⟩ := head_beginsAfresh
                  (htokens y List.mem_cons_self).spells (hy.resolve_left (by simp [hs]))
                rw [if_neg Bool.false_ne_true, hd]
                exact hgoes

/-! ### Delimiters -/

theorem nests_closes {b : Bracket} {kind : Option Kind} (h : s.nests x.piece.kind = true)
    (hc : x.piece.kind.closes? = some b) :
    s.openings.brackets = b :: (s.behind x kind).openings.brackets := by
  rw [nests, hc] at h
  obtain ⟨rest, hrest⟩ := List.head?_eq_some_iff.mp (eq_of_beq h)
  have hopens := opens?_eq_none_of_closes? hc
  show _ = b :: (openingsBehind _ _ _ _ _).brackets
  rw [openingsBehind, hopens, hc]
  show _ = b :: s.openings.pop.brackets
  rw [Openings.brackets_pop, hrest]
  rfl

theorem behind_opens {b : Bracket} {kind : Option Kind} (ho : x.piece.kind.opens? = some b) :
    (s.behind x kind).openings.brackets = b :: s.openings.brackets := by
  show (openingsBehind _ _ _ _ _).brackets = _
  rw [openingsBehind, ho, Option.isSome_some, if_pos rfl, Openings.brackets_push,
    roleOf_bracket ho]

theorem behind_other {kind : Option Kind} (ho : x.piece.kind.opens? = none)
    (hc : x.piece.kind.closes? = none) : (s.behind x kind).openings = s.openings := by
  show openingsBehind _ _ _ _ _ = _
  rw [openingsBehind, ho, hc]
  rfl

/-- A comma that is admitted has an element in front of it. -/
theorem nests_comma (h : s.nests .comma = true) {last : Option Kind}
    (hlast : ∀ w, s.prev = some w → w.kind.isComment = false → last = some w.kind) :
    lacksElement last = false := by
  have hany : (s.prev.any fun w => !w.kind.isComment && !lacksElement (some w.kind)) = true := h
  obtain ⟨w, hw, hboth⟩ := Option.any_eq_true _ _ |>.mp hany
  simp only [Bool.and_eq_true, Bool.not_eq_true'] at hboth
  rw [hlast w hw hboth.1]
  exact hboth.2

/-- One token that the rules allow. -/
theorem nestingFault?_step (hnests : s.nests x.piece.kind = true) {last : Option Kind}
    (hlast : ∀ w, s.prev = some w → w.kind.isComment = false → last = some w.kind)
    (kind : Option Kind) (kinds : List Kind) :
    nestingFault? (unplaced s.openings.brackets) last (unplaced (x.piece.kind :: kinds)) =
      nestingFault? (unplaced (s.behind x kind).openings.brackets) (some x.piece.kind)
        (unplaced kinds) := by
  have hcomma : ¬ (x.piece.kind = .comma ∧ lacksElement last = true) := by
    rintro ⟨hk, hlacks⟩
    rw [hk] at hnests
    rw [nests_comma hnests hlast] at hlacks
    cases hlacks
  have hcons : unplaced (x.piece.kind :: kinds) =
      ⟨Span.at 0, x.piece.kind⟩ :: unplaced kinds := rfl
  rw [hcons, nestingFault?, if_neg hcomma]
  cases ho : x.piece.kind.opens? with
  | some b =>
      rw [behind_opens ho]
      rfl
  | none =>
      cases hc : x.piece.kind.closes? with
      | none =>
          rw [behind_other ho hc]
      | some b =>
          have hbrackets : s.openings.brackets = b :: (s.behind x kind).openings.brackets :=
            nests_closes hnests hc
          simp only [hbrackets, unplaced, List.map_cons, if_true]

/-- The delimiter rules are kept along a walk: what follows is judged from where it ends. -/
theorem nestingFault?_walk (h : walk traits s xs next = some s') {last : Option Kind}
    (hlast : ∀ w, s.prev = some w → w.kind.isComment = false → last = some w.kind)
    (kinds : List Kind) : ∃ last',
      nestingFault? (unplaced s.openings.brackets) last (unplaced (delimiting xs ++ kinds)) =
        nestingFault? (unplaced s'.openings.brackets) last' (unplaced kinds) := by
  induction xs generalizing s last with
  | nil =>
      cases h
      exact ⟨last, rfl⟩
  | cons x xs ih =>
      obtain ⟨hadmits, hrest⟩ := walk_cons_eq_some_iff.mp h
      obtain ⟨_, hnests, _⟩ := admits_iff.mp hadmits
      cases hcomment : x.piece.kind.isComment with
      | true =>
          have hnone : x.piece.kind.opens? = none ∧ x.piece.kind.closes? = none := by
            revert hcomment
            cases x.piece.kind <;> decide
          have hbehind : ∀ w, (s.behind x ((xs.head?.or next).map (·.piece.kind))).prev = some w →
              w.kind.isComment = false → last = some w.kind := by
            intro w hw hk
            cases hw
            have hkind : x.piece.kind.isComment = false := hk
            rw [hcomment] at hkind
            cases hkind
          obtain ⟨last', ih⟩ := ih hrest hbehind
          rw [behind_other hnone.1 hnone.2] at ih
          refine ⟨last', ?_⟩
          rw [← ih]
          simp [delimiting, hcomment]
      | false =>
          have hbehind : ∀ w, (s.behind x ((xs.head?.or next).map (·.piece.kind))).prev = some w →
              w.kind.isComment = false → some x.piece.kind = some w.kind := by
            intro w hw _
            cases hw
            rfl
          obtain ⟨last', ih⟩ := ih hrest hbehind
          refine ⟨last', ?_⟩
          have hcons : delimiting (x :: xs) ++ kinds =
              x.piece.kind :: (delimiting xs ++ kinds) := by
            simp [delimiting, hcomment]
          rw [hcons, nestingFault?_step hnests hlast, ih]

end Spot

/-! ## Rows and pages -/

/-- The tokens of a row. -/
def SetRow.tokens (r : SetRow) : List Piece := r.pieces.map (·.piece)

/-- A row that stands as deep as the layout puts it, can be walked, and leaves `behind` open. -/
structure Settled (openings : List Opening) (r : SetRow) (behind : List Opening) : Prop where
  apart : r.apart = false
  legible : Legible r.tokens
  nonempty : r.pieces ≠ []
  depth : rowDepth openings r.tokens = r.depth
  walk : ∃ s, Spot.walk (.ofLine r.tokens) (.start openings) r.pieces none = some s ∧
    s.openings.endLine = behind

/-- Rows each of which is settled behind those above it. -/
inductive AllSettled : List Opening → List SetRow → List Opening → Prop
  | nil (openings : List Opening) : AllSettled openings [] openings
  | cons {openings between behind : List Opening} {r : SetRow} {rows : List SetRow} :
      Settled openings r between → AllSettled between rows behind →
      AllSettled openings (r :: rows) behind

theorem AllSettled.append {openings between behind : List Opening} {rows below : List SetRow}
    (h : AllSettled openings rows between) (hbelow : AllSettled between below behind) :
    AllSettled openings (rows ++ below) behind := by
  induction h with
  | nil => exact hbelow
  | cons hr _ ih => exact .cons hr (ih hbelow)

section
variable {openings behind : List Opening} {rows : List SetRow}

theorem AllSettled.legible (h : AllSettled openings rows behind) :
    ∀ line ∈ rows.map SetRow.tokens, Legible line := by
  induction h with
  | nil => simp
  | cons hr _ ih => exact List.forall_mem_cons.mpr ⟨hr.legible, ih⟩

/-- Settled rows are the layout of their own lines. -/
theorem AllSettled.setRows_eq (h : AllSettled openings rows behind) :
    setRows openings false (rows.map SetRow.tokens) = rows := by
  induction h with
  | nil => rfl
  | @cons openings between behind r rows hr _ ih =>
      obtain ⟨s, hwalk, hbehind⟩ := hr.walk
      obtain ⟨hset, hopen⟩ := Spot.setPieces_of_walk hwalk
      have hline : setLine openings r.tokens = r.pieces := hset
      have harrange : (arrangeRow openings r.tokens).2 = between := by
        rw [← hbehind, ← hopen]
        rfl
      have hcons : ∃ p line, r.tokens = p :: line := by
        obtain ⟨x, xs, hx⟩ := List.exists_cons_of_ne_nil hr.nonempty
        exact ⟨x.piece, xs.map (·.piece), by rw [SetRow.tokens, hx]; rfl⟩
      obtain ⟨p, line, hp⟩ := hcons
      have hrow : (⟨false, r.depth, r.pieces⟩ : SetRow) = r := by rw [← hr.apart]
      rw [List.map_cons, hp, setRows, ← hp, harrange, ih, hline, hr.depth, hrow]

theorem AllSettled.nothingFuses (h : AllSettled openings rows behind) :
    ∀ r ∈ rows, NothingFuses r.pageRow.row.words := by
  induction h with
  | nil => simp
  | @cons _ _ _ r _ hr _ ih =>
      obtain ⟨s, hwalk, _⟩ := hr.walk
      refine List.forall_mem_cons.mpr ⟨Spot.nothingFuses_of_walk ?_ hwalk, ih⟩
      intro x hx
      exact hr.legible.forall_isToken x.piece (List.mem_map_of_mem hx)

theorem AllSettled.nestingFault?_eq (h : AllSettled openings rows behind) (last : Option Kind) :
    ∃ last', nestingFault? (unplaced (openings.map (·.role.bracket))) last
        (unplaced (rows.flatMap (delimiting ·.pieces))) =
      nestingFault? (unplaced (behind.map (·.role.bracket))) last' [] := by
  induction h generalizing last with
  | nil => exact ⟨last, rfl⟩
  | @cons openings between behind r rows hr _ ih =>
      obtain ⟨s, hwalk, hbehind⟩ := hr.walk
      have hstart : ∀ w, (Spot.start openings).prev = some w → w.kind.isComment = false →
          last = some w.kind := fun w hw => by cases hw
      obtain ⟨last', hrow⟩ := Spot.nestingFault?_walk hwalk hstart
        (rows.flatMap (delimiting ·.pieces))
      obtain ⟨last'', ih⟩ := ih last'
      refine ⟨last'', ?_⟩
      rw [List.flatMap_cons, ← ih, ← hbehind, Openings.brackets_endLine, ← hrow]
      rfl

end

/-! ## The text of a page -/

/-- The text of a page that ends with a line feed. -/
def pageText (rows : List SetRow) : List Char := Lexeme.spell (pageLexemes true rows)

theorem kinds_tokens (rows : List SetRow) :
    (rows.map SetRow.tokens).flatten.map (·.kind) = rows.flatMap (·.pieces.map (·.piece.kind)) := by
  induction rows with
  | nil => rfl
  | cons r rows ih =>
      rw [List.map_cons, List.flatten_cons, List.map_append, ih, List.flatMap_cons, SetRow.tokens,
        List.map_map]
      rfl

theorem pageLines_length {rows : List SetRow} (h : rows ≠ []) :
    1 < (pageLines true rows).length := by
  obtain ⟨r, rows, rfl⟩ := List.exists_cons_of_ne_nil h
  cases rows with
  | nil => exact Nat.lt_succ_self 1
  | cons r' rows =>
      simp only [pageLines, belowLines, List.length_cons, List.length_append]
      omega

section
variable {rows : List SetRow} (h : AllSettled [] rows [])
include h

theorem AllSettled.laid : AllLaid rows := by
  have hset : AllLaid (setRows [] false (rows.map SetRow.tokens)) := setRows_laid h.legible
  rwa [h.setRows_eq] at hset

/-- A page of settled rows is cut into the lexemes that it was written from. -/
theorem AllSettled.lexemes_eq : lexemes (pageText rows) = pageLexemes true rows :=
  (readsBack_pageLexemes_iff h.laid).mpr h.nothingFuses

theorem AllSettled.nestingFault?_eq_none :
    nestingFault? [] none (unplaced (rows.flatMap (delimiting ·.pieces))) = none := by
  obtain ⟨last', hnest⟩ := h.nestingFault?_eq none
  exact hnest

theorem AllSettled.balances :
    Balances (([] : List Opening).map (·.role.bracket))
      ((rows.map SetRow.tokens).flatten.map (·.kind)) := by
  have hleaves := (behind_nil.nestingFault?_eq_none_iff.mp h.nestingFault?_eq_none).2
  refine ⟨[], _, [], rfl, ?_, openAfter?_eq_some_iff.mpr hleaves⟩
  rw [kinds_tokens, List.nil_append, unplaced, List.map_map, List.filter_flatMap]
  exact List.map_id _

/-- The delimiters of the page nest when it is read. -/
theorem AllSettled.layoutFault?_eq_none :
    layoutFault? (Lexeme.locate 0 (lexemes (pageText rows))) = none := by
  have hread : ∀ x ∈ lexemes (String.ofList (pageText rows)).toList, x.Readable := by
    rw [String.toList_ofList, h.lexemes_eq]
    exact (typeset_pageLexemes h.laid).readable
  obtain ⟨ts, hts, hvisible⟩ := rawTokens_visible_iff.mpr ⟨hread, rfl⟩
  have hfault := layoutFault?_eq (String.ofList (pageText rows))
  rw [hts, String.toList_ofList] at hfault
  rw [hfault]
  refine nestingFault?_none_congr rfl ?_ h.nestingFault?_eq_none
  rw [significant_map_value, hvisible, String.toList_ofList, h.lexemes_eq,
    visible_pageLexemes h.laid, unplaced, List.map_map, List.map_flatMap, List.filter_flatMap]
  simp only [List.map_map]
  exact (List.map_id _).symm

theorem AllSettled.layout_eq (hne : rows ≠ []) :
    layout (Piece.ofLexemes none (pageLexemes true rows)) = pageText rows := by
  have hagain : arrangeLines [] false (pageLines true (setRows [] false (rows.map SetRow.tokens))) =
      _ := arrangeLines_pageLines h.balances false
  rw [h.setRows_eq] at hagain
  rw [layout, Piece.any_newline, lines_pageLexemes h.laid, decide_eq_true (pageLines_length hne),
    hagain, renderPage_headApart, pageText, spell_pageLexemes]

/-- **A page that is laid out already.**  A page of settled rows is laid out as it is. -/
theorem AllSettled.reformat_eq (hne : rows ≠ []) :
    reformat (String.ofList (pageText rows)) = .ok (String.ofList (pageText rows)) := by
  rw [reformat_ok_iff, String.toList_ofList, h.lexemes_eq, h.layout_eq hne, ← h.lexemes_eq]
  exact ⟨h.layoutFault?_eq_none, rfl⟩

end

end MethodSkeleton
