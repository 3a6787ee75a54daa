/-
# `MethodSkeleton.Proofs.Builtin.Pages` — the stub and the mock as pages

What a built-in template writes is set row by row.  Most rows are the same for every method and
are settled by running the walk on them (`settleAll?`).  The others are walked part by part: the
first line of a declaration (`Declaration.settled_signature`), which all the templates share in
some form, and the call that a mock passes on (`Declaration.settled_mockCall`).

Of the stub and of the mock it is said that their rows are settled (`settled_stub`,
`settled_mock`) and that they spell the text that the template writes (`text_stub`, `text_mock`).
-/
import MethodSkeleton.Proofs.Builtin.Pieces

namespace MethodSkeleton

open SetPiece (of ofWord ofWords commaList textOf gap)

/-! ## Rows -/

namespace SetRow

/-- A row with no blank line before it. -/
def of (depth : Nat) (pieces : List SetPiece) : SetRow := ⟨false, depth, pieces⟩

/-- The text of a row with the end of its line. -/
def text (r : SetRow) : List Char := List.replicate r.depth '\t' ++ (textOf r.pieces ++ ['\n'])

end SetRow

theorem AllSettled.apart {openings behind : List Opening} {rows : List SetRow}
    (h : AllSettled openings rows behind) : ∀ r ∈ rows, r.apart = false := by
  induction h with
  | nil => simp
  | cons hr _ ih => exact List.forall_mem_cons.mpr ⟨hr.apart, ih⟩

/-- The text of a page, row by row. -/
theorem AllSettled.pageText_eq {openings behind : List Opening} {rows : List SetRow}
    (h : AllSettled openings rows behind) : pageText rows = rows.flatMap SetRow.text := by
  have hrender : ∀ r : SetRow, r.text = r.pageRow.row.render ++ ['\n'] := by
    intro r
    simp [SetRow.text, SetRow.pageRow, Row.render, textOf, List.flatMap_map]
  have hbelow : ∀ rows : List SetRow, (∀ r ∈ rows, r.apart = false) →
      renderBelow (rows.map SetRow.pageRow) ++ ['\n'] = '\n' :: rows.flatMap SetRow.text := by
    intro rows hrows
    induction rows with
    | nil => rfl
    | cons r rows ih =>
        obtain ⟨hr, hrows⟩ := List.forall_mem_cons.mp hrows
        have hapart : r.pageRow.apart = false := hr
        rw [renderBelow] at ih ⊢
        rw [List.map_cons, List.flatMap_cons, hapart, if_neg Bool.false_ne_true, List.append_assoc,
          ih hrows, List.flatMap_cons, hrender]
        simp
  rw [pageText, spell_pageLexemes]
  cases h with
  | nil => rfl
  | @cons _ between _ r rows _ hrows =>
      rw [List.map_cons, renderPage, List.append_assoc, if_pos rfl, hbelow rows hrows.apart,
        List.flatMap_cons, hrender, List.append_assoc]
      rfl

theorem rowDepth_word (openings : List Opening) {x : String} (hx : isKeyword x = false)
    (xs : List SetPiece) :
    rowDepth openings ((ofWord false x :: xs).map (·.piece)) = level openings := by
  have hlabel : ∀ k, isKeyword k = true → (ofWord false x).piece.isWord k = false := by
    intro k hk
    exact Written.isWord_eq_false true hx hk
  have hnone : beginsWithLabel ((ofWord false x :: xs).map (·.piece)) = false := by
    show (ofWord false x).piece.isOneOf ["case", "default"] = false
    simp [Piece.isOneOf, hlabel "case" (by decide), hlabel "default" (by decide)]
  rw [rowDepth, hnone]
  rfl

/-- A row all of whose tokens can be read is settled if it stands as deep as it should and can be
walked. -/
theorem settled_of_walk {openings behind : List Opening} {depth : Nat} {pieces : List SetPiece}
    (hstands : ∀ x ∈ pieces, x.Stands) (hne : pieces ≠ [])
    (hdepth : rowDepth openings (pieces.map (·.piece)) = depth)
    (hwalk : ∃ s, Spot.walk (.ofLine (pieces.map (·.piece))) (.start openings) pieces none =
      some s ∧ s.openings.endLine = behind) : Settled openings (.of depth pieces) behind where
  apart := rfl
  legible := SetPiece.legible_of_stands hstands
  nonempty := hne
  depth := hdepth
  walk := hwalk

/-! ### Rows without parts of any length -/

/-- Whether a token is a word, a text in quotes, or has a fixed spelling. -/
def SetPiece.isRead (x : SetPiece) : Bool :=
  match x.piece.kind, x.piece.text with
  | .identifier, text => isWordText text
  | .string, '"' :: body => quoteEnd '"' body == .closed body.length
  | kind, text => punctuation.contains (text, kind)

theorem SetPiece.stands_of_isRead {x : SetPiece} (h : x.isRead = true) : x.Stands := by
  obtain ⟨spaced, kind, text, blankBefore, blankAfter⟩ := x
  simp only [isRead] at h
  split at h
  · exact ⟨⟨Kind.noConfusion, spells_identifier_iff.mpr h⟩, Kind.noConfusion⟩
  · exact ⟨⟨Kind.noConfusion, .string (eq_of_beq h)⟩, Kind.noConfusion⟩
  · have hstands : (of spaced kind text).Stands := stands_of_mem (List.contains_iff_mem.mp h)
    exact ⟨⟨hstands.isToken.visible, hstands.isToken.spells⟩, hstands.goesOn⟩

theorem SetPiece.stands_of_all {xs : List SetPiece} (h : xs.all (·.isRead) = true) :
    ∀ x ∈ xs, x.Stands :=
  fun x hx => stands_of_isRead (List.all_eq_true.mp h x hx)

/-- What a row of such tokens leaves open, if it is settled. -/
def settle? (openings : List Opening) (r : SetRow) : Option (List Opening) :=
  if r.apart = false ∧ r.pieces.all (·.isRead) = true ∧ r.pieces.isEmpty = false ∧
      rowDepth openings r.tokens = r.depth then
    (Spot.walk (.ofLine r.tokens) (.start openings) r.pieces none).map (·.openings.endLine)
  else none

/-- What such rows leave open, if each is settled behind those above it. -/
def settleAll? : List Opening → List SetRow → Option (List Opening)
  | openings, [] => some openings
  | openings, r :: rows => (settle? openings r).bind (settleAll? · rows)

theorem settled_of_settle? {openings behind : List Opening} {r : SetRow}
    (h : settle? openings r = some behind) : Settled openings r behind := by
  obtain ⟨⟨hapart, hread, hne, hdepth⟩, hwalk⟩ := Option.ite_none_right_eq_some.mp h
  obtain ⟨s, hs, hbehind⟩ := Option.map_eq_some_iff.mp hwalk
  exact ⟨hapart, SetPiece.legible_of_stands (SetPiece.stands_of_all hread),
    List.isEmpty_eq_false_iff.mp hne, hdepth, s, hs, hbehind⟩

theorem allSettled_of_settleAll? {openings behind : List Opening} {rows : List SetRow}
    (h : settleAll? openings rows = some behind) : AllSettled openings rows behind := by
  induction rows generalizing openings with
  | nil =>
      cases h
      exact .nil behind
  | cons r rows ih =>
      obtain ⟨between, hr, hrows⟩ := Option.bind_eq_some_iff.mp h
      exact .cons (settled_of_settle? hr) (ih hrows)

/-! ## The first line of a declaration -/

/-- A delimiter of an earlier row that deepens those below it. -/
def deep (role : Role) : Opening := ⟨role, true⟩

namespace Declaration

def resultPieces (d : Declaration) : List SetPiece :=
  match d.results with
  | [] => []
  | [t] => t.pieces true
  | ts =>
    of true .leftParen ['('] :: (commaList PlainType.pieces ts ++ [of false .rightParen [')']])

/-- The receiver is declared as a parameter is. -/
def receiverParameter (x receiver : String) : NamedParameter :=
  ⟨x, false, .pointer (.words receiver [])⟩

def signaturePieces (x receiver : String) (d : Declaration) : List SetPiece :=
  [ofWord false "func", of true .leftParen ['(']] ++
    ((commaList NamedParameter.pieces [receiverParameter x receiver] ++
        [of false .rightParen [')']]) ++
      ([ofWord true d.name] ++ ([of false .leftParen ['(']] ++
        ((commaList NamedParameter.pieces d.parameters ++ [of false .rightParen [')']]) ++
          (d.resultPieces ++ [of true .leftBrace ['{']])))))

variable {d : Declaration} {x receiver : String}

theorem stands_resultPieces (h : d.Over IsIdentifier) : ∀ y ∈ d.resultPieces, y.Stands := by
  have htypes : ∀ t ∈ d.results, ∀ spaced, ∀ y ∈ t.pieces spaced, y.Stands :=
    fun t ht spaced => PlainType.stands_pieces (h.result t ht) spaced
  rw [resultPieces]
  split
  · simp
  · rename_i t hresults
    exact htypes t (by simp [hresults]) true
  · refine List.forall_mem_cons.mpr ⟨SetPiece.stands_of_mem (by decide), ?_⟩
    exact List.forall_mem_append.mpr ⟨SetPiece.stands_commaList htypes,
      List.forall_mem_singleton.mpr (SetPiece.stands_of_mem (by decide))⟩

theorem stands_signaturePieces (h : d.Over IsIdentifier) (hx : IsName x) (hr : IsName receiver) :
    ∀ y ∈ d.signaturePieces x receiver, y.Stands := by
  have hclose : ∀ y ∈ [of false .rightParen [')']], y.Stands :=
    List.forall_mem_singleton.mpr (SetPiece.stands_of_mem (by decide))
  have hreceiver : ∀ y ∈ commaList NamedParameter.pieces [receiverParameter x receiver],
      y.Stands := by
    refine SetPiece.stands_commaList (List.forall_mem_singleton.mpr fun spaced => ?_)
    have htype : (receiverParameter x receiver).type.Over IsIdentifier := ⟨hr.identifier, by simp⟩
    exact NamedParameter.stands_pieces hx htype spaced
  have hparameters : ∀ y ∈ commaList NamedParameter.pieces d.parameters, y.Stands :=
    SetPiece.stands_commaList fun p hp spaced =>
      NamedParameter.stands_pieces (h.parameterName p hp) (h.parameterType p hp) spaced
  simp only [signaturePieces, List.forall_mem_append]
  refine ⟨?_, ⟨hreceiver, hclose⟩, ?_, ?_, ⟨hparameters, hclose⟩, stands_resultPieces h, ?_⟩
  · exact SetPiece.stands_of_all (by decide)
  · exact List.forall_mem_singleton.mpr (SetPiece.stands_ofWord h.name.identifier)
  · exact List.forall_mem_singleton.mpr (SetPiece.stands_of_mem (by decide))
  · exact List.forall_mem_singleton.mpr (SetPiece.stands_of_mem (by decide))

/-- Behind its results the declaration opens its body. -/
theorem walk_results (control : Bool) (d : Declaration) : ∃ s,
    Spot.walk ⟨control, true⟩ ⟨⟨[], []⟩, some (.mark .rightParen [')'])⟩
        (d.resultPieces ++ [of true .leftBrace ['{']]) none = some s ∧
      s.openings.endLine = [deep .block] := by
  have hlist : Spot.walk ⟨control, true⟩ ⟨⟨[], []⟩, some (.mark .rightParen [')'])⟩
      [of true .leftBrace ['{']] none = some ⟨⟨[], [⟨.block, false⟩]⟩, _⟩ := rfl
  rw [resultPieces]
  split
  · exact ⟨_, hlist, rfl⟩
  · rename_i t hresults
    obtain ⟨first, y, htype⟩ := Spot.walk_type ⟨control, true⟩ ⟨[], []⟩
      (some (of true .leftBrace ['{'])) t .list
    have hbrace : spaceBetween ⟨control, true⟩ ⟨[], []⟩ (.word first y)
        (of true .leftBrace ['{']).piece none = true := by
      show spaceBeforeBrace ⟨control, true⟩ (.word first y) (of true .leftBrace ['{']).piece none =
        true
      rw [spaceBeforeBrace]
      cases control <;> simp [of]
    exact ⟨_, Spot.walk_trans htype
      (Spot.walk_cons_eq_some_iff.mpr ⟨Spot.admits_iff.mpr ⟨hbrace, rfl, rfl⟩, rfl⟩), rfl⟩
  · have hresults := Spot.walk_resultTypes ⟨control, true⟩ ⟨[], []⟩
      (some (of true .leftBrace ['{'])) d.results
    exact ⟨_, Spot.walk_trans (Spot.walk_cons_eq_some_iff.mpr ⟨rfl, hresults⟩) hlist, rfl⟩

/-- The first line of a declaration opens its body. -/
theorem settled_signature {x receiver : String} {d : Declaration} (h : d.Over IsIdentifier)
    (hx : IsName x) (hr : IsName receiver) :
    Settled [] (.of 0 (d.signaturePieces x receiver)) [deep .block] := by
  refine settled_of_walk (stands_signaturePieces h hx hr) (List.cons_ne_nil _ _) rfl ?_
  -- Whether the line holds a word of control hangs on the words in its types, so nothing is
  -- known of it; the walk is the same either way.
  generalize htraits : LineTraits.ofLine _ = traits
  obtain ⟨control, rfl⟩ : ∃ control, traits = ⟨control, true⟩ :=
    ⟨traits.control, by rw [← htraits]; rfl⟩
  have hfunc : ∀ next, Spot.walk ⟨control, true⟩ (.start [])
      [ofWord false "func", of true .leftParen ['(']] next =
        some ⟨(⟨[], []⟩ : Openings).push .paren, some (.mark .leftParen ['('])⟩ := fun _ => rfl
  have hreceiver := fun next => Spot.walk_parameters ⟨control, true⟩ ⟨[], []⟩ next
    (List.forall_mem_singleton.mpr (show IsName (receiverParameter x receiver).name from hx))
  have hname : ∀ next, Spot.walk ⟨control, true⟩ ⟨⟨[], []⟩, some (.mark .rightParen [')'])⟩
      [ofWord true d.name] next = some ⟨⟨[], []⟩, some (.word false d.name)⟩ :=
    fun _ => Spot.walk_word (Written.TakesType.list.spaceBetween_word d.name)
  have hcall := fun next => Spot.walk_call ⟨control, true⟩ ⟨[], []⟩ next false h.name.free
  have hparameters := fun next => Spot.walk_parameters ⟨control, true⟩ ⟨[], []⟩ next h.parameterName
  obtain ⟨s, hresults, hbehind⟩ := walk_results control d
  refine ⟨s, Spot.walk_trans (hfunc _) (Spot.walk_trans (hreceiver _) ?_), hbehind⟩
  exact Spot.walk_trans (hname _) (Spot.walk_trans (hcall _) (Spot.walk_trans (hparameters _)
    hresults))

section text
variable {d : Declaration} {m : Method}

theorem textOf_parameters (h : d.method = m.named) :
    textOf (commaList NamedParameter.pieces d.parameters) = m.parameterText.toList := by
  rw [Method.parameterText, mapIdx_parameters h fun i name type => listed i (name ++ " " ++ type)]
  exact SetPiece.textOf_commaList fun p _ spaced => p.textOf_pieces spaced

theorem textOf_resultPieces (h : d.method = m.named) :
    textOf d.resultPieces = m.resultText.toList := by
  rw [resultPieces, Method.resultText, results_eq h]
  cases hresults : d.results with
  | nil => rfl
  | cons t ts =>
      cases ts with
      | nil => simpa [gap] using t.textOf_pieces true
      | cons t' ts =>
          have hlist : textOf (commaList PlainType.pieces d.results) =
              (String.join ((d.results.map PlainType.text).mapIdx listed)).toList := by
            rw [← results_eq h, mapIdx_results h]
            exact SetPiece.textOf_commaList fun t _ spaced => t.textOf_pieces spaced
          rw [hresults] at hlist
          show textOf (of true .leftParen ['('] ::
            (commaList PlainType.pieces (t :: t' :: ts) ++ _)) = _
          rw [SetPiece.textOf_cons, SetPiece.textOf_append, hlist]
          simp [gap]

theorem text_signature (h : d.method = m.named) (x receiver : String) :
    (SetRow.of 0 (d.signaturePieces x receiver)).text = (m.signatureLine x receiver).toList := by
  rw [Method.toList_signatureLine, name_eq h, ← textOf_parameters h, ← textOf_resultPieces h]
  simp [SetRow.text, SetRow.of, signaturePieces, ofWord, gap, commaList, receiverParameter,
    NamedParameter.textOf_pieces, PlainType.text, ParameterType.text]

end text

/-! ## The stub and the mock -/

def stubPage (d : Declaration) : List SetRow :=
  [.of 0 (d.signaturePieces "r" d.receiver),
    .of 1 [ofWord false "panic", of false .leftParen ['('],
      of false .string "\"not implemented\"".toList, of false .rightParen [')']],
    .of 0 [of false .rightBrace ['}']]]

/-- The call that the mock passes on. -/
def mockCallPieces (d : Declaration) : List SetPiece :=
  ((if d.results = [] then [ofWord false "m"] else [ofWord false "return", ofWord true "m"]) ++
      [of false .dot ['.'], ofWord false (d.name ++ "Func")]) ++
    ([of false .leftParen ['(']] ++
      (commaList (NamedParameter.argument []) d.parameters ++ [of false .rightParen [')']]))

def mockPage (d : Declaration) : List SetRow :=
  [.of 0 (d.signaturePieces "m" (d.receiver ++ "Mock")), .of 1 d.mockCallPieces,
    .of 0 [of false .rightBrace ['}']]]

section
variable {d : Declaration} {m : Method}

theorem isName_mock (h : IsName d.receiver) : IsName (d.receiver ++ "Mock") :=
  h.identifier.isName_append (List.all_eq_true.mp (by decide)) ⟨'M', by simp, by decide⟩

theorem isName_func (h : IsName d.name) : IsName (d.name ++ "Func") :=
  h.identifier.isName_append (List.all_eq_true.mp (by decide)) ⟨'F', by simp, by decide⟩

theorem settled_stub (h : d.Over IsIdentifier) : AllSettled [] d.stubPage [] :=
  .cons (settled_signature h (by decide) h.receiver) (allSettled_of_settleAll? (by decide))

theorem stands_arguments (h : d.Over IsIdentifier) {front : List String}
    (hfront : ∀ x ∈ front, IsIdentifier x) :
    ∀ x ∈ commaList (NamedParameter.argument front) d.parameters ++ [of false .rightParen [')']],
      x.Stands := by
  refine List.forall_mem_append.mpr ⟨SetPiece.stands_commaList ?_,
    SetPiece.stands_of_all (by decide)⟩
  exact fun p hp spaced => NamedParameter.stands_argument hfront (h.parameterName p hp) spaced

theorem settled_mockCall (h : d.Over IsIdentifier) :
    Settled [deep .block] (.of 1 d.mockCallPieces) [deep .block] := by
  have hfunc := isName_func h.name
  have hfront : ∀ traits next, Spot.walk traits (.start [deep .block])
      ((if d.results = [] then [ofWord false "m"] else [ofWord false "return", ofWord true "m"]) ++
        [of false .dot ['.'], ofWord false (d.name ++ "Func")]) next =
          some ⟨⟨[deep .block], []⟩, some (.word false (d.name ++ "Func"))⟩ := by
    intro traits next
    split <;> rfl
  refine settled_of_walk ?_ ?_ ?_ ⟨_, Spot.walk_trans (hfront _ _) (Spot.walk_trans
    (Spot.walk_call _ _ _ false hfunc.free) (Spot.walk_arguments _ _ _ [] _)), rfl⟩
  · refine List.forall_mem_append.mpr ⟨List.forall_mem_append.mpr ⟨?_, ?_⟩,
      List.forall_mem_append.mpr ⟨?_, stands_arguments h (by simp)⟩⟩
    · split <;> exact SetPiece.stands_of_all (by decide)
    · exact List.forall_mem_cons.mpr ⟨SetPiece.stands_of_mem (by decide),
        List.forall_mem_singleton.mpr (SetPiece.stands_ofWord hfunc.identifier)⟩
    · exact SetPiece.stands_of_all (by decide)
  · simp [mockCallPieces]
  · rw [mockCallPieces]
    split <;> rfl

theorem settled_mock (h : d.Over IsIdentifier) : AllSettled [] d.mockPage [] :=
  .cons (settled_signature h (by decide) (isName_mock h.receiver))
    (.cons (settled_mockCall h) (allSettled_of_settleAll? (by decide)))

theorem textOf_arguments (h : d.method = m.named) (hd : d.Over IsIdentifier) (front : List String) :
    textOf (commaList (NamedParameter.argument front) d.parameters) =
      (m.argumentText (String.join (front.map (· ++ ".")))).toList := by
  rw [Method.argumentText, mapIdx_parameters h fun i name type =>
    listed i (String.join (front.map (· ++ ".")) ++ name ++
      if containsText type "..." then "..." else "")]
  refine SetPiece.textOf_commaList fun p hp spaced => ?_
  rw [p.textOf_argument, ParameterType.containsText_ellipsis (hd.parameterType p hp)]

theorem text_stub (h : d.method = m.named) :
    d.stubPage.flatMap SetRow.text = m.stubText.toList := by
  rw [Method.toList_stubText, receiver_eq h, ← text_signature h, stubPage, List.flatMap_cons]
  rfl

theorem text_mock (h : d.method = m.named) (hd : d.Over IsIdentifier) :
    d.mockPage.flatMap SetRow.text = m.mockText.toList := by
  rw [Method.toList_mockText, receiver_eq h, ← text_signature h, mockPage, List.flatMap_cons]
  congr 1
  have harguments := textOf_arguments h hd []
  by_cases hresults : d.results = [] <;>
    simp [SetRow.text, SetRow.of, mockCallPieces, hresults, results_eq h, ofWord, gap, name_eq h,
      harguments]

end

end Declaration

end MethodSkeleton
