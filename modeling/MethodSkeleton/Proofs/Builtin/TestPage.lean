/-
# `MethodSkeleton.Proofs.Builtin.TestPage` — the page of the test template

The test has a row for every parameter, a row for every result that is wanted and three for
every result that is compared; the other rows are the same for all methods, but for names.  The
rows of one kind leave open what was open before them, so a block of them is settled row by row
(`AllSettled.of_forall`).
-/
import MethodSkeleton.Proofs.Builtin.Pages

namespace MethodSkeleton

open SetPiece (of ofWord ofWords commaList textOf gap)

/-- Rows that all leave open what was open before them. -/
theorem AllSettled.of_forall {openings : List Opening} {rows : List SetRow}
    (h : ∀ r ∈ rows, Settled openings r openings) : AllSettled openings rows openings := by
  induction rows with
  | nil => exact .nil openings
  | cons r rows ih =>
      obtain ⟨hr, hrows⟩ := List.forall_mem_cons.mp h
      exact .cons hr (ih hrows)

/-- Blocks of rows that all leave open what was open before them. -/
theorem AllSettled.flatten {openings : List Opening} {blocks : List (List SetRow)}
    (h : ∀ rows ∈ blocks, AllSettled openings rows openings) :
    AllSettled openings blocks.flatten openings := by
  induction blocks with
  | nil => exact .nil openings
  | cons rows blocks ih =>
      obtain ⟨hrows, hblocks⟩ := List.forall_mem_cons.mp h
      exact hrows.append (ih hblocks)

namespace Declaration

/-! ## The rows -/

def testPieces (d : Declaration) : List SetPiece :=
  [ofWord false "func", ofWord true ("Test" ++ d.receiver ++ "_" ++ d.name)] ++
    ([of false .leftParen ['(']] ++
      [ofWord false "t", of true .star ['*'], ofWord false "testing", of false .dot ['.'],
        ofWord false "T", of false .rightParen [')'], of true .leftBrace ['{']])

/-- A field with its type. -/
def fieldRow (x : String) (t : PlainType) : SetRow := .of 2 (ofWord false x :: t.pieces true)

/-- The variables that the results are kept in. -/
def gotNames (d : Declaration) : List String := d.results.mapIdx fun i _ => "got" ++ toString i

/-- The call of the method under test. -/
def testCallPieces (d : Declaration) : List SetPiece :=
  (commaList (fun spaced x => [ofWord spaced x]) d.gotNames ++
    ((if d.results = [] then [ofWord false "r"]
        else [of true .operator [':', '='], ofWord true "r"]) ++
      [of false .dot ['.'], ofWord false d.name])) ++
    ([of false .leftParen ['(']] ++
      (commaList (NamedParameter.argument ["tt", "args"]) d.parameters ++
        [of false .rightParen [')']]))

/-- The message about the result at index `i`. -/
def testMessage (d : Declaration) (i : Nat) : String :=
  d.name ++ "() got" ++ toString i ++ " = %v, want %v"

/-- The result at index `i` and what is wanted of it, as the last arguments of a call. -/
def comparedPieces (spaced : Bool) (i : Nat) : List SetPiece :=
  [ofWord spaced ("got" ++ toString i)] ++
    ([of false .comma [','], ofWord true "tt", of false .dot ['.']] ++
      ([ofWord false ("want" ++ toString i)] ++ [of false .rightParen [')']]))

def conditionRow (i : Nat) : SetRow :=
  .of 3 ([ofWord false "if", of true .bang ['!'], ofWord false "reflect", of false .dot ['.'],
      ofWord false "DeepEqual", of false .leftParen ['(']] ++
    (comparedPieces false i ++ [of true .leftBrace ['{']]))

def reportRow (d : Declaration) (i : Nat) : SetRow :=
  .of 4 ([ofWord false "t", of false .dot ['.'], ofWord false "Errorf",
      of false .leftParen ['(']] ++
    ([of false .string ('"' :: ((d.testMessage i).toList ++ ['"']))] ++
      ([of false .comma [',']] ++ comparedPieces true i)))

/-- The comparison of the result at index `i`. -/
def comparisonRows (d : Declaration) (i : Nat) : List SetRow :=
  [conditionRow i, d.reportRow i, .of 3 [of false .rightBrace ['}']]]

def argumentsRow : SetRow :=
  .of 1 [ofWord false "type", ofWord true "args", ofWord true "struct", of true .leftBrace ['{']]

/-- From the end of the arguments to the first result that is wanted. -/
def caseRows : List SetRow :=
  [.of 1 [of false .rightBrace ['}']],
    .of 1 [ofWord false "tests", of true .operator [':', '='], of true .leftBracket ['['],
      of false .rightBracket [']'], ofWord false "struct", of true .leftBrace ['{']],
    .of 2 [ofWord false "name", ofWord true "string"],
    .of 2 [ofWord false "args", ofWord true "args"]]

/-- The end of the fields of a test case, in front of the cases. -/
def casesRow : SetRow := .of 1 [of false .rightBrace ['}'], of false .leftBrace ['{']]

def commentRow : SetRow :=
  .of 2 [of false .lineComment ('/' :: '/' :: " add test cases here".toList)]

/-- From the end of the cases to the function that runs one. -/
def runRows : List SetRow :=
  [.of 1 [of false .rightBrace ['}']],
    .of 1 [ofWord false "for", ofWord true "_", of false .comma [','], ofWord true "tt",
      of true .operator [':', '='], ofWord true "range", ofWord true "tests",
      of true .leftBrace ['{']],
    .of 2 [ofWord false "t", of false .dot ['.'], ofWord false "Run", of false .leftParen ['('],
      ofWord false "tt", of false .dot ['.'], ofWord false "name", of false .comma [','],
      ofWord true "func", of false .leftParen ['('], ofWord false "t", of true .star ['*'],
      ofWord false "testing", of false .dot ['.'], ofWord false "T", of false .rightParen [')'],
      of true .leftBrace ['{']]]

def variableRow (d : Declaration) : SetRow :=
  .of 3 [ofWord false "var", ofWord true "r", ofWord true d.receiver]

def closingRows : List SetRow :=
  [.of 2 [of false .rightBrace ['}'], of false .rightParen [')']],
    .of 1 [of false .rightBrace ['}']],
    .of 0 [of false .rightBrace ['}']]]

def testPage (d : Declaration) : List SetRow :=
  [.of 0 d.testPieces, argumentsRow] ++ (d.parameters.map (fun p => fieldRow p.name p.type.held) ++
    (caseRows ++ (d.results.mapIdx (fun i t => fieldRow ("want" ++ toString i) t) ++
      ([casesRow, commentRow] ++ (runRows ++ ([variableRow d, .of 3 d.testCallPieces] ++
        ((d.results.mapIdx fun i _ => d.comparisonRows i).flatten ++ closingRows)))))))

/-! ## The rows are settled -/

/-- What is open inside of the function that runs a test case. -/
def runOpenings : List Opening := [deep .block, ⟨.paren, false⟩, deep .block, deep .block]

variable {d : Declaration}

theorem isName_test (h : d.Over IsIdentifier) :
    IsName ("Test" ++ d.receiver ++ "_" ++ d.name) := by
  have htest : IsIdentifier "Test" := by decide
  have hreceiver := htest.append h.receiver.identifier.forall_part
  have hboth := hreceiver.append (t := "_") (List.all_eq_true.mp (by decide))
  exact hboth.isName_append h.name.identifier.forall_part ⟨'T', by simp, by decide⟩

theorem isName_got (i : Nat) : IsName ("got" ++ toString i) := isName_indexed (by decide) i

theorem isName_want (i : Nat) : IsName ("want" ++ toString i) := isName_indexed (by decide) i

theorem settled_field {x : String} (hx : IsName x) {t : PlainType} (ht : t.Over IsIdentifier)
    {openings : List Opening} (hlevel : level openings = 2) :
    Settled openings (fieldRow x t) openings := by
  refine settled_of_walk ?_ (List.cons_ne_nil _ _) ?_ ?_
  · exact List.forall_mem_cons.mpr ⟨SetPiece.stands_ofWord hx.identifier, t.stands_pieces ht true⟩
  · rw [rowDepth_word openings hx.free, hlevel]
  · obtain ⟨first, y, htype⟩ := Spot.walk_type (.ofLine _) ⟨openings, []⟩ none t
      (.name true hx.free)
    exact ⟨_, Spot.walk_cons_eq_some_iff.mpr ⟨rfl, htype⟩, rfl⟩

theorem settled_test (h : d.Over IsIdentifier) :
    Settled [] (.of 0 d.testPieces) [deep .block] := by
  have htest := isName_test h
  refine settled_of_walk ?_ (List.cons_ne_nil _ _) rfl ?_
  · refine List.forall_mem_append.mpr ⟨List.forall_mem_cons.mpr ⟨?_, ?_⟩, ?_⟩
    · exact SetPiece.stands_of_isRead (by decide)
    · exact List.forall_mem_singleton.mpr (SetPiece.stands_ofWord htest.identifier)
    · exact SetPiece.stands_of_all (by decide)
  · have hname : ∀ traits next, Spot.walk traits (.start [])
        [ofWord false "func", ofWord true ("Test" ++ d.receiver ++ "_" ++ d.name)] next =
          some ⟨⟨[], []⟩, some (.word false ("Test" ++ d.receiver ++ "_" ++ d.name))⟩ :=
      fun _ _ => rfl
    have hparameter : ∀ traits, ∃ s, Spot.walk traits
        ⟨(⟨[], []⟩ : Openings).push .paren, some (.mark .leftParen ['('])⟩
        [ofWord false "t", of true .star ['*'], ofWord false "testing", of false .dot ['.'],
          ofWord false "T", of false .rightParen [')'], of true .leftBrace ['{']] none = some s ∧
            s.openings.endLine = [deep .block] := fun _ => ⟨_, rfl, rfl⟩
    obtain ⟨s, hwalk, hbehind⟩ := hparameter (.ofLine (d.testPieces.map (·.piece)))
    exact ⟨s, Spot.walk_trans (hname _ _) (Spot.walk_trans
      (Spot.walk_call _ _ _ false htest.free) hwalk), hbehind⟩

theorem settled_comment :
    Settled [deep .composite, deep .block] commentRow [deep .composite, deep .block] := by
  have hbody : ∀ c ∈ " add test cases here".toList, isLineEnd c = false := by simp [isLineEnd]
  exact ⟨rfl, .last ⟨Kind.noConfusion, .lineComment hbody⟩, List.cons_ne_nil _ _, rfl, _, rfl, rfl⟩

theorem settled_variable (h : d.Over IsIdentifier) :
    Settled runOpenings (variableRow d) runOpenings := by
  refine settled_of_walk ?_ (List.cons_ne_nil _ _) rfl ⟨_, rfl, rfl⟩
  refine List.forall_mem_cons.mpr ⟨SetPiece.stands_of_isRead (by decide), ?_⟩
  refine List.forall_mem_cons.mpr ⟨SetPiece.stands_of_isRead (by decide), ?_⟩
  exact List.forall_mem_singleton.mpr (SetPiece.stands_ofWord h.receiver.identifier)

/-! ### The call -/

/-- The variables of the results, from the start of the row. -/
theorem walk_gotNames (traits : LineTraits) (openings : List Opening) (next : Option SetPiece)
    (x : String) (xs : List String) : ∃ w, (∃ first y, w = .word first y) ∧
    Spot.walk traits (.start openings) (commaList (fun spaced x => [ofWord spaced x]) (x :: xs))
        next = some ⟨⟨openings, []⟩, some w⟩ := by
  refine Spot.walk_commaList traits ⟨openings, []⟩ next ?_ ?_ ?_
  · rintro w ⟨first, y, rfl⟩
    exact .word first y
  · exact fun next => ⟨_, ⟨true, x, rfl⟩, Spot.walk_word rfl⟩
  · exact fun y _ next => ⟨_, ⟨false, y, rfl⟩, Spot.walk_word rfl⟩

/-- Up to the name of the method, with variables for the results or without. -/
theorem walk_testCall (d : Declaration) (traits : LineTraits) (openings : List Opening)
    (next : Option SetPiece) :
    Spot.walk traits (.start openings) (commaList (fun spaced x => [ofWord spaced x]) d.gotNames ++
      ((if d.results = [] then [ofWord false "r"]
          else [of true .operator [':', '='], ofWord true "r"]) ++
        [of false .dot ['.'], ofWord false d.name])) next =
      some ⟨⟨openings, []⟩, some (.word false d.name)⟩ := by
  rw [gotNames]
  cases d.results with
  | nil => rfl
  | cons t ts =>
      obtain ⟨w, ⟨first, y, rfl⟩, hnames⟩ := walk_gotNames traits openings _ ("got" ++ toString 0)
        (ts.mapIdx fun i _ => "got" ++ toString (i + 1))
      rw [List.mapIdx_cons, if_neg (List.cons_ne_nil t ts)]
      exact Spot.walk_trans hnames rfl

theorem isName_gotNames (d : Declaration) : ∀ x ∈ d.gotNames, IsName x := by
  intro x hx
  obtain ⟨i, _, rfl⟩ := List.mem_mapIdx.mp hx
  exact isName_got i

theorem testCallPieces_eq_cons (d : Declaration) :
    ∃ x rest, d.testCallPieces = ofWord false x :: rest ∧ isKeyword x = false := by
  rw [testCallPieces, gotNames]
  cases d.results with
  | nil => exact ⟨"r", _, rfl, by decide⟩
  | cons t ts =>
      rw [List.mapIdx_cons]
      exact ⟨_, _, rfl, (isName_got 0).free⟩

theorem settled_testCall (h : d.Over IsIdentifier) :
    Settled runOpenings (.of 3 d.testCallPieces) runOpenings := by
  obtain ⟨x, rest, hcons, hx⟩ := d.testCallPieces_eq_cons
  refine settled_of_walk ?_ ?_ ?_ ⟨_, Spot.walk_trans (walk_testCall d _ _ _) (Spot.walk_trans
    (Spot.walk_call _ _ _ false h.name.free) (Spot.walk_arguments _ _ _ ["tt", "args"] _)), rfl⟩
  · have hnames : ∀ y ∈ commaList (fun spaced x => [ofWord spaced x]) d.gotNames, y.Stands :=
      SetPiece.stands_commaList fun x hx _ => List.forall_mem_singleton.mpr
        (SetPiece.stands_ofWord (d.isName_gotNames x hx).identifier)
    have hfront : ∀ x ∈ ["tt", "args"], IsIdentifier x := by decide
    have hmiddle : ∀ y ∈ (if d.results = [] then [ofWord false "r"]
        else [of true .operator [':', '='], ofWord true "r"]), y.Stands := by
      split <;> exact SetPiece.stands_of_all (by decide)
    refine List.forall_mem_append.mpr ⟨List.forall_mem_append.mpr ⟨hnames,
      List.forall_mem_append.mpr ⟨hmiddle, ?_⟩⟩, List.forall_mem_append.mpr ⟨?_, ?_⟩⟩
    · exact List.forall_mem_cons.mpr ⟨SetPiece.stands_of_isRead (by decide),
        List.forall_mem_singleton.mpr (SetPiece.stands_ofWord h.name.identifier)⟩
    · exact SetPiece.stands_of_all (by decide)
    · exact stands_arguments h hfront
  · rw [hcons]
    exact List.cons_ne_nil _ _
  · rw [hcons, rowDepth_word runOpenings hx]
    rfl

/-! ### The comparisons -/

theorem quoteEnd_plain {cs : List Char}
    (h : ∀ c ∈ cs, c ≠ '"' ∧ c ≠ '\\' ∧ isLineEnd c = false) :
    quoteEnd '"' (cs ++ ['"']) = .closed (cs ++ ['"']).length := by
  induction cs with
  | nil => rfl
  | cons c cs ih =>
      obtain ⟨⟨hquote, hslash, hend⟩, hcs⟩ := List.forall_mem_cons.mp h
      rw [List.cons_append, quoteEnd]
      · simp [hquote, hslash, hend, ih hcs, QuoteEnd.after]
      · simp [hslash]

theorem stands_message (h : d.Over IsIdentifier) (i : Nat) :
    (of false .string ('"' :: ((d.testMessage i).toList ++ ['"']))).Stands := by
  have hpart : ∀ c, isIdentifierPart c = true → c ≠ '"' ∧ c ≠ '\\' ∧ isLineEnd c = false := by
    intro c hc
    refine ⟨?_, ?_, ?_⟩
    · rintro rfl
      exact absurd hc (by decide)
    · rintro rfl
      exact absurd hc (by decide)
    · rw [← Bool.not_eq_true, isLineEnd, Bool.or_eq_true, beq_iff_eq, beq_iff_eq]
      rintro (rfl | rfl) <;> exact absurd hc (by decide)
  refine ⟨⟨Kind.noConfusion, .string (quoteEnd_plain ?_)⟩, Kind.noConfusion⟩
  simp only [testMessage, String.toList_append, List.forall_mem_append]
  exact ⟨⟨⟨fun c hc => hpart c (h.name.identifier.forall_part c hc), by simp [isLineEnd]⟩,
    fun c hc => hpart c (forall_part_toString i c hc)⟩, by simp [isLineEnd]⟩

theorem stands_compared (spaced : Bool) (i : Nat) : ∀ x ∈ comparedPieces spaced i, x.Stands := by
  simp only [comparedPieces, List.forall_mem_append, List.forall_mem_singleton]
  exact ⟨SetPiece.stands_ofWord (isName_got i).identifier, SetPiece.stands_of_all (by decide),
    SetPiece.stands_ofWord (isName_want i).identifier, SetPiece.stands_of_isRead (by decide)⟩

theorem settled_condition (i : Nat) :
    Settled runOpenings (conditionRow i) (deep .block :: runOpenings) := by
  refine settled_of_walk ?_ (List.cons_ne_nil _ _) rfl ⟨_, rfl, rfl⟩
  simp only [List.forall_mem_append, List.forall_mem_singleton]
  exact ⟨SetPiece.stands_of_all (by decide), stands_compared false i,
    SetPiece.stands_of_isRead (by decide)⟩

theorem settled_report (h : d.Over IsIdentifier) (i : Nat) :
    Settled (deep .block :: runOpenings) (d.reportRow i) (deep .block :: runOpenings) := by
  refine settled_of_walk ?_ (List.cons_ne_nil _ _) rfl ⟨_, rfl, rfl⟩
  simp only [List.forall_mem_append, List.forall_mem_singleton]
  exact ⟨SetPiece.stands_of_all (by decide), stands_message h i,
    SetPiece.stands_of_isRead (by decide), stands_compared true i⟩

theorem settled_comparison (h : d.Over IsIdentifier) (i : Nat) :
    AllSettled runOpenings (d.comparisonRows i) runOpenings :=
  .cons (settled_condition i) (.cons (settled_report h i)
    (allSettled_of_settleAll? (by decide)))

/-! ### The page -/

theorem settled_testPage (h : d.Over IsIdentifier) : AllSettled [] d.testPage [] := by
  have hparameters : AllSettled [deep .block, deep .block]
      (d.parameters.map fun p => fieldRow p.name p.type.held) [deep .block, deep .block] := by
    refine .of_forall (List.forall_mem_map.mpr fun p hp => ?_)
    exact settled_field (h.parameterName p hp) (ParameterType.over_held (h.parameterType p hp)) rfl
  have hresults : AllSettled [deep .block, deep .block]
      (d.results.mapIdx fun i t => fieldRow ("want" ++ toString i) t)
      [deep .block, deep .block] := by
    refine .of_forall fun r hr => ?_
    obtain ⟨i, hi, rfl⟩ := List.mem_mapIdx.mp hr
    exact settled_field (isName_want i) (h.result _ (List.getElem_mem hi)) rfl
  have hcomparisons : AllSettled runOpenings
      (d.results.mapIdx fun i _ => d.comparisonRows i).flatten runOpenings := by
    refine .flatten fun rows hrows => ?_
    obtain ⟨i, _, rfl⟩ := List.mem_mapIdx.mp hrows
    exact settled_comparison h i
  have hhead : AllSettled [] [.of 0 d.testPieces, argumentsRow] [deep .block, deep .block] :=
    .cons (settled_test h) (allSettled_of_settleAll? (by decide))
  have hcases : AllSettled [deep .block, deep .block] caseRows [deep .block, deep .block] :=
    allSettled_of_settleAll? (by decide)
  have hcomment : AllSettled [deep .block, deep .block] [casesRow, commentRow]
      [deep .composite, deep .block] :=
    .cons (settled_of_settle? (by decide)) (.cons settled_comment (.nil _))
  have hrun : AllSettled [deep .composite, deep .block] runRows runOpenings :=
    allSettled_of_settleAll? (by decide)
  have hcall : AllSettled runOpenings [variableRow d, .of 3 d.testCallPieces] runOpenings :=
    .cons (settled_variable h) (.cons (settled_testCall h) (.nil _))
  have hclosing : AllSettled runOpenings closingRows [] := allSettled_of_settleAll? (by decide)
  exact hhead.append (hparameters.append (hcases.append (hresults.append (hcomment.append
    (hrun.append (hcall.append (hcomparisons.append hclosing)))))))

/-! ## The text of the page -/

variable {m : Method}

theorem text_fieldRow (x : String) (t : PlainType) : (fieldRow x t).text =
    "\t\t".toList ++ (x.toList ++ (" ".toList ++ (t.text.toList ++ "\n".toList))) := by
  simp [fieldRow, SetRow.text, SetRow.of, ofWord, gap, t.textOf_pieces]

theorem text_parameters (h : d.method = m.named) (hd : d.Over IsIdentifier) :
    (d.parameters.map fun p => fieldRow p.name p.type.held).flatMap SetRow.text =
      (String.join (m.parameters.mapIdx Parameter.field)).toList := by
  have hfields : m.parameters.mapIdx Parameter.field = d.parameters.map fun p =>
      "\t\t" ++ p.name ++ " " ++ replaceText "..." "[]" p.type.text ++ "\n" := by
    have hall := mapIdx_parameters h fun _ name type =>
      "\t\t" ++ name ++ " " ++ replaceText "..." "[]" type ++ "\n"
    exact hall.trans (List.ext_getElem (by simp) (by simp))
  rw [hfields, String.toList_join, List.flatMap_map, List.flatMap_map]
  refine List.flatMap_congr fun p hp => ?_
  rw [text_fieldRow, ParameterType.replaceText_ellipsis (hd.parameterType p hp)]
  simp

/-- Lists that are made by index have the same text if their elements have. -/
theorem flatMap_mapIdx_congr {α β γ : Type} {as : List α} {f : Nat → α → β} {g : Nat → α → γ}
    {text : β → List Char} {text' : γ → List Char} (h : ∀ i a, text (f i a) = text' (g i a)) :
    (as.mapIdx f).flatMap text = (as.mapIdx g).flatMap text' := by
  rw [List.flatMap_def, List.flatMap_def]
  exact congrArg List.flatten (List.ext_getElem (by simp) (by simp [h]))

theorem text_results (h : d.method = m.named) :
    (d.results.mapIdx fun i t => fieldRow ("want" ++ toString i) t).flatMap SetRow.text =
      (String.join (m.results.mapIdx wantField)).toList := by
  rw [mapIdx_results h, String.toList_join]
  refine flatMap_mapIdx_congr fun i t => ?_
  rw [text_fieldRow, toList_wantField]
  simp

theorem text_comparison (h : d.method = m.named) (i : Nat) :
    (d.comparisonRows i).flatMap SetRow.text = (m.comparison i).toList := by
  rw [Method.toList_comparison, name_eq h]
  simp [comparisonRows, conditionRow, reportRow, SetRow.text, SetRow.of, comparedPieces,
    testMessage, ofWord, gap]

theorem text_comparisons (h : d.method = m.named) :
    (d.results.mapIdx fun i _ => d.comparisonRows i).flatten.flatMap SetRow.text =
      (String.join (m.results.mapIdx fun i _ => m.comparison i)).toList := by
  rw [mapIdx_results h, String.toList_join, ← List.flatMap_id', List.flatMap_assoc]
  exact flatMap_mapIdx_congr fun i _ => text_comparison h i

theorem text_gotNames (h : d.method = m.named) :
    textOf (commaList (fun spaced x => [ofWord spaced x]) d.gotNames) =
      (String.join (m.results.mapIdx fun i _ => listed i ("got" ++ toString i))).toList := by
  have hnames : (m.results.mapIdx fun i _ => listed i ("got" ++ toString i)) =
      d.gotNames.mapIdx fun i x => listed i x := by
    rw [mapIdx_results h, gotNames, List.mapIdx_mapIdx]
    rfl
  rw [hnames]
  refine SetPiece.textOf_commaList fun x _ spaced => ?_
  simp [ofWord]

theorem text_testCall (h : d.method = m.named) (hd : d.Over IsIdentifier) :
    (SetRow.of 3 d.testCallPieces).text = m.testCall.toList := by
  have hfront : "tt.args." = String.join (["tt", "args"].map (· ++ ".")) := by decide
  rw [Method.toList_testCall, name_eq h, ← text_gotNames h, hfront,
    ← textOf_arguments h hd]
  by_cases hresults : d.results = []
  · simp [SetRow.text, SetRow.of, testCallPieces, ofWord, gap, hresults, results_eq h]
  · simp [SetRow.text, SetRow.of, testCallPieces, ofWord, gap, hresults, results_eq h]

theorem text_test (h : d.method = m.named) (hd : d.Over IsIdentifier) :
    d.testPage.flatMap SetRow.text = m.testText.toList := by
  rw [Method.toList_testText, ← text_parameters h hd, ← text_results h, ← text_testCall h hd,
    ← text_comparisons h, receiver_eq h, name_eq h]
  have hcase : caseRows.flatMap SetRow.text = "\t\x7d\n".toList ++
      ("\ttests := []struct \x7b\n".toList ++ ("\t\tname string\n".toList ++
        "\t\targs args\n".toList)) := by decide
  have hcomment : [casesRow, commentRow].flatMap SetRow.text =
      "\t\x7d\x7b\n".toList ++ "\t\t// add test cases here\n".toList := by decide
  have hrun : runRows.flatMap SetRow.text = "\t\x7d\n".toList ++
      ("\tfor _, tt := range tests \x7b\n".toList ++
        "\t\tt.Run(tt.name, func(t *testing.T) \x7b\n".toList) := by decide
  have hclosing : closingRows.flatMap SetRow.text =
      "\t\t\x7d)\n".toList ++ ("\t\x7d\n".toList ++ "\x7d\n".toList) := by decide
  have htest : (SetRow.of 0 d.testPieces).text = "func Test".toList ++ (d.receiver.toList ++
      ("_".toList ++ (d.name.toList ++ "(t *testing.T) \x7b\n".toList))) := by
    simp [SetRow.text, SetRow.of, testPieces, ofWord, gap]
  have harguments : argumentsRow.text = "\ttype args struct \x7b\n".toList := by decide
  have hvariable : (variableRow d).text =
      "\t\t\tvar r ".toList ++ (d.receiver.toList ++ "\n".toList) := by
    simp [SetRow.text, SetRow.of, variableRow, ofWord, gap]
  simp only [testPage, List.flatMap_append, hcase, hcomment, hrun, hclosing, htest, harguments,
    hvariable, List.flatMap_cons, List.flatMap_nil, List.append_nil, List.append_assoc]

end Declaration

end MethodSkeleton
