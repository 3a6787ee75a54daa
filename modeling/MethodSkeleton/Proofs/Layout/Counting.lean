/-
# `MethodSkeleton.Proofs.Layout.Counting` — the depth of a line as a counter

The layout finds how deep a line stands by counting the open delimiters that deepen.  The same
depth can be kept as a number while the tokens pass: it goes down when a delimiter that deepens is
closed and up when one is marked at the end of a line.  Which one to mark is found from the lowest
height that the stack had on the line: if it is higher at the end, then its top was opened on the
line and stays open.

`Reaches` says at which places the loop comes by, and with what.  The invariant is that the stack
is in two parts (`Split`): below the mark of the lowest height what earlier lines opened, above it
what this line has opened, not yet marked; and the level counts the marks of the lower part.  From
it follow all that a reader of the loop has to believe: the level is the number of marks
(`Reaches.level_eq`), a line marks only a delimiter of its own (`Reaches.endLine_cases`), and the
rows are those of the layout (`Reaches.row_eq`).
-/
import Mathlib.Data.List.Induction
import Mathlib.Data.List.TakeWhile
import MethodSkeleton.Proofs.Layout.Lines

namespace MethodSkeleton

/-! ## The loop -/

/-- An open delimiter: what it delimits, where it was opened, and whether it deepens lines. -/
structure OpenDelimiter where
  role : Role
  span : Span
  line : Nat
  indents : Bool
deriving DecidableEq, Repr

/-- What the layout keeps of an open delimiter. -/
def OpenDelimiter.opening (o : OpenDelimiter) : Opening := ⟨o.role, o.indents⟩

/-- What is carried from line to line. -/
structure Tally where
  stack : List OpenDelimiter
  level : Nat
deriving DecidableEq, Repr

/-- What is kept while the tokens of a line pass. -/
structure LineTally extends Tally where
  /-- The lowest height of the stack on this line. -/
  low : Nat
  /-- Only closing delimiters have passed. -/
  leading : Bool
  indent : Nat
  words : List Word
  prev : Option Written
deriving DecidableEq, Repr

namespace LineTally

/-- In front of a line. -/
def start (t : Tally) : LineTally where
  toTally := t
  low := t.stack.length
  leading := true
  indent := t.level
  words := []
  prev := none

/-- The open delimiters, those of the line `no` apart from the others. -/
def openings (no : Nat) (c : LineTally) : Openings where
  outer := (c.stack.dropWhile (·.line == no)).map (·.opening)
  inner := (c.stack.takeWhile (·.line == no)).map (·.opening)

/-- Behind an opening delimiter. -/
def opened (o : OpenDelimiter) (c : LineTally) : LineTally :=
  { c with stack := o :: c.stack, leading := false }

/-- Behind a closing delimiter. -/
def closed (c : LineTally) : LineTally :=
  match c.stack with
  | [] => c
  | o :: outer =>
    let level := if o.indents then c.level - 1 else c.level
    { c with
      stack := outer
      level := level
      low := min c.low outer.length
      indent := if c.leading then level else c.indent }

/-- Behind a token of this kind, which may open the delimiter `o`. -/
def behind (o : OpenDelimiter) (kind : Kind) (c : LineTally) : LineTally :=
  if kind.opens?.isSome then c.opened o
  else if kind.closes?.isSome then c.closed
  else { c with leading := false }

/-- Writes a token. -/
def write (spaced : Bool) (w : Written) (c : LineTally) : LineTally :=
  { c with words := c.words ++ [⟨spaced, w.text⟩], prev := some w }

/-- One token of the line `no`, in front of a token of the kind `next`. -/
def token (source : List Char) (no : Nat) (traits : LineTraits) (t : Located RawToken)
    (next : Option Kind) (c : LineTally) : LineTally :=
  let p := Piece.ofToken source t
  let spaced := spaceBefore traits (c.openings no) c.prev p next
  let o : OpenDelimiter := ⟨roleOf c.prev p spaced next, t.span, no, false⟩
  (c.behind o p.kind).write spaced (writtenAs (c.openings no) c.prev p spaced)

/-- Behind a line: if the stack is higher than its lowest height, then its top is marked. -/
def endLine (c : LineTally) : Tally :=
  match c.stack with
  | [] => c.toTally
  | o :: outer =>
    if c.low < c.stack.length then ⟨{ o with indents := true } :: outer, c.level + 1⟩
    else c.toTally

/-- What is written for the line. -/
def row (line : List Piece) (c : LineTally) : Row :=
  ⟨c.indent - if beginsWithLabel line then 1 else 0, c.words⟩

end LineTally

/-- The loop comes by in the line `no`, behind its tokens `passed` and in front of `rest`. -/
inductive Reaches (source : List Char) (lines : List SourceLine) :
    Nat → List (Located RawToken) → List (Located RawToken) → LineTally → Prop
  | start {l : SourceLine} : lines[0]? = some l →
      Reaches source lines 0 [] l.tokens (.start ⟨[], 0⟩)
  | token {no : Nat} {passed rest : List (Located RawToken)} {t : Located RawToken}
      {c : LineTally} : Reaches source lines no passed (t :: rest) c →
      Reaches source lines no (passed ++ [t]) rest
        (c.token source no (.ofLine ((passed ++ t :: rest).map (Piece.ofToken source))) t
          (rest.head?.map (·.value.kind)))
  | line {no : Nat} {passed : List (Located RawToken)} {c : LineTally} {l : SourceLine} :
      Reaches source lines no passed [] c → lines[no + 1]? = some l →
      Reaches source lines (no + 1) [] l.tokens (.start c.endLine)

/-! ## The stack in two parts -/

namespace LineTally

/-- The delimiters of the line `no` and those of earlier lines. -/
structure Split (no : Nat) (inner outer : List OpenDelimiter) (c : LineTally) : Prop where
  stack_eq : c.stack = inner ++ outer
  own : ∀ o ∈ inner, o.line = no ∧ o.indents = false
  above : ∀ o ∈ outer, o.line < no
  low_eq : c.low = outer.length
  level_eq : c.level = outer.countP (·.indents)

namespace Split

variable {no : Nat} {inner outer : List OpenDelimiter} {c : LineTally}

theorem openings_eq (h : Split no inner outer c) :
    c.openings no = ⟨outer.map (·.opening), inner.map (·.opening)⟩ := by
  have hinner : ∀ o ∈ inner, (o.line == no) = true := fun o ho => beq_iff_eq.mpr (h.own o ho).1
  have houter : ∀ o ∈ outer, (o.line == no) = false := fun o ho =>
    beq_eq_false_iff_ne.mpr (Nat.ne_of_lt (h.above o ho))
  have htake : outer.takeWhile (·.line == no) = [] := by
    cases outer with
    | nil => rfl
    | cons o outer => rw [List.takeWhile_cons_of_neg (by simp [houter])]
  have hdrop : outer.dropWhile (·.line == no) = outer := by
    cases outer with
    | nil => rfl
    | cons o outer => rw [List.dropWhile_cons_of_neg (by simp [houter])]
  rw [openings, h.stack_eq, List.takeWhile_append_of_pos hinner, htake,
    List.dropWhile_append_of_pos hinner, hdrop, List.append_nil]

/-- The level counts the marks of the whole stack. -/
theorem countP_eq (h : Split no inner outer c) : c.level = c.stack.countP (·.indents) := by
  have hinner : inner.countP (·.indents) = 0 :=
    List.countP_eq_zero.mpr fun o ho => by simp [h.own o ho]
  rw [h.stack_eq, List.countP_append, hinner, Nat.zero_add, h.level_eq]

/-- What is marked is of an earlier line. -/
theorem line_lt (h : Split no inner outer c) {o : OpenDelimiter} (ho : o ∈ c.stack)
    (hmark : o.indents = true) : o.line < no := by
  rw [h.stack_eq, List.mem_append] at ho
  rcases ho with hin | hout
  · rw [(h.own o hin).2] at hmark
    cases hmark
  · exact h.above o hout

theorem start {t : Tally} (habove : ∀ o ∈ t.stack, o.line < no)
    (hlevel : t.level = t.stack.countP (·.indents)) : Split no [] t.stack (.start t) where
  stack_eq := rfl
  own := by simp
  above := habove
  low_eq := rfl
  level_eq := hlevel

theorem opened {o : OpenDelimiter} (h : Split no inner outer c) (hline : o.line = no)
    (ho : o.indents = false) : Split no (o :: inner) outer (c.opened o) where
  stack_eq := by rw [LineTally.opened, h.stack_eq, List.cons_append]
  own := List.forall_mem_cons.mpr ⟨⟨hline, ho⟩, h.own⟩
  above := h.above
  low_eq := h.low_eq
  level_eq := h.level_eq

/-- A delimiter of this line is closed: the lower part stays. -/
theorem closed_cons {o : OpenDelimiter} (h : Split no (o :: inner) outer c) :
    Split no inner outer c.closed := by
  obtain ⟨⟨_, ho⟩, hown⟩ := List.forall_mem_cons.mp h.own
  have hclosed : c.closed = { c with
      stack := inner ++ outer
      low := min c.low (inner ++ outer).length
      indent := if c.leading then c.level else c.indent } := by
    rw [LineTally.closed, h.stack_eq]
    simp [ho]
  rw [hclosed]
  refine ⟨rfl, hown, h.above, ?_, h.level_eq⟩
  simp [h.low_eq]

/-- A delimiter of an earlier line is closed: the mark of the lowest height goes down with it. -/
theorem closed_nil {o : OpenDelimiter} (h : Split no [] (o :: outer) c) :
    Split no [] outer c.closed := by
  obtain ⟨_, habove⟩ := List.forall_mem_cons.mp h.above
  have hlevel := h.level_eq
  rw [List.countP_cons] at hlevel
  refine ⟨?_, by simp, habove, ?_, ?_⟩
  all_goals rw [LineTally.closed, h.stack_eq]
  · rfl
  · simp [h.low_eq]
  · show (if o.indents then c.level - 1 else c.level) = _
    rw [hlevel]
    cases o.indents <;> simp

theorem closed (h : Split no inner outer c) :
    (∃ inner' outer', Split no inner' outer' c.closed) ∧
      c.closed.openings no = (c.openings no).pop := by
  rw [h.openings_eq]
  cases inner with
  | cons o inner => exact ⟨⟨_, _, h.closed_cons⟩, h.closed_cons.openings_eq⟩
  | nil =>
      cases outer with
      | cons o outer => exact ⟨⟨_, _, h.closed_nil⟩, h.closed_nil.openings_eq⟩
      | nil =>
          have hclosed : c.closed = c := by rw [LineTally.closed, h.stack_eq]; rfl
          rw [hclosed]
          exact ⟨⟨_, _, h⟩, h.openings_eq⟩

theorem write (h : Split no inner outer c) (spaced : Bool) (w : Written) :
    Split no inner outer (c.write spaced w) :=
  ⟨h.stack_eq, h.own, h.above, h.low_eq, h.level_eq⟩

/-- A token keeps the stack in two parts, and opens and closes what it does for the layout. -/
theorem behind {o : OpenDelimiter} {prev : Option Written} {p : Piece} {spaced : Bool}
    {next : Option Kind} (h : Split no inner outer c) (hline : o.line = no)
    (ho : o.indents = false) (hrole : o.role = roleOf prev p spaced next) :
    (∃ inner' outer', Split no inner' outer' (c.behind o p.kind)) ∧
      (c.behind o p.kind).openings no = openingsBehind (c.openings no) prev p spaced next := by
  rw [LineTally.behind, openingsBehind]
  split
  · have hopened := h.opened hline ho
    refine ⟨⟨_, _, hopened⟩, ?_⟩
    rw [hopened.openings_eq, h.openings_eq, ← hrole, Openings.push, List.map_cons,
      OpenDelimiter.opening, ho]
  split
  · exact h.closed
  · exact ⟨⟨_, _, h.stack_eq, h.own, h.above, h.low_eq, h.level_eq⟩, rfl⟩

theorem token (h : Split no inner outer c) (source : List Char) (traits : LineTraits)
    (t : Located RawToken) (next : Option Kind) :
    (∃ inner' outer', Split no inner' outer' (c.token source no traits t next)) ∧
      (c.token source no traits t next).openings no =
        openingsBehind (c.openings no) c.prev (Piece.ofToken source t)
          (spaceBefore traits (c.openings no) c.prev (Piece.ofToken source t) next) next := by
  let p := Piece.ofToken source t
  let spaced := spaceBefore traits (c.openings no) c.prev p next
  let o : OpenDelimiter := ⟨roleOf c.prev p spaced next, t.span, no, false⟩
  obtain ⟨⟨inner', outer', hbehind⟩, hopenings⟩ := h.behind (show o.line = no from rfl) rfl rfl
  exact ⟨⟨inner', outer', hbehind.write _ _⟩, hopenings⟩

theorem endLine_nil (h : Split no [] outer c) : c.endLine = c.toTally := by
  have hlow : ¬ c.low < c.stack.length := by simp [h.low_eq, h.stack_eq]
  rw [LineTally.endLine]
  split
  · rfl
  · rw [if_neg hlow]

theorem endLine_cons {o : OpenDelimiter} (h : Split no (o :: inner) outer c) :
    c.endLine = ⟨{ o with indents := true } :: (inner ++ outer), c.level + 1⟩ := by
  have hlow : c.low < c.stack.length := by
    simp only [h.low_eq, h.stack_eq, List.cons_append, List.length_cons, List.length_append]
    omega
  have hstack : c.stack = o :: (inner ++ outer) := h.stack_eq
  rw [LineTally.endLine]
  simp only [hstack] at hlow ⊢
  rw [if_pos hlow]

/-- What is open behind the line is what is open for the layout. -/
theorem endLine_opening (h : Split no inner outer c) :
    c.endLine.stack.map (·.opening) = (c.openings no).endLine := by
  rw [h.openings_eq]
  cases inner with
  | nil =>
      rw [h.endLine_nil, h.stack_eq]
      rfl
  | cons o inner =>
      rw [h.endLine_cons]
      simp [OpenDelimiter.opening, Openings.endLine]

/-- Behind the line all of the stack is of earlier lines. -/
theorem next (h : Split no inner outer c) :
    Split (no + 1) [] c.endLine.stack (.start c.endLine) := by
  have hcount := h.countP_eq
  have hline : ∀ o ∈ c.stack, o.line < no + 1 := by
    rw [h.stack_eq]
    refine List.forall_mem_append.mpr ⟨fun o ho => ?_, fun o ho => ?_⟩
    · exact Nat.lt_succ_of_le (Nat.le_of_eq (h.own o ho).1)
    · exact Nat.lt_succ_of_lt (h.above o ho)
  cases inner with
  | nil =>
      rw [h.endLine_nil]
      exact .start hline hcount
  | cons o inner =>
      have ho : o.indents = false := (h.own o List.mem_cons_self).2
      rw [h.stack_eq, List.cons_append, List.countP_cons, ho] at hcount
      rw [h.stack_eq, List.cons_append, List.forall_mem_cons] at hline
      rw [h.endLine_cons]
      refine .start (List.forall_mem_cons.mpr hline) ?_
      rw [List.countP_cons, hcount]
      rfl

end Split

end LineTally

section
variable {source : List Char} {lines : List SourceLine} {no : Nat}
  {passed rest : List (Located RawToken)} {c : LineTally}

/-- The loop is in a line of the source. -/
theorem Reaches.line_eq (h : Reaches source lines no passed rest c) :
    ∃ l, lines[no]? = some l ∧ l.tokens = passed ++ rest := by
  induction h with
  | start hl => exact ⟨_, hl, rfl⟩
  | token _ ih =>
      obtain ⟨l, hl, htokens⟩ := ih
      exact ⟨l, hl, by rw [htokens, List.append_assoc]; rfl⟩
  | line _ hl _ => exact ⟨_, hl, rfl⟩

/-- At the end of a line, all of it has passed. -/
theorem Reaches.whole_line (h : Reaches source lines no passed [] c) :
    ∃ l, lines[no]? = some l ∧ l.tokens = passed := by
  obtain ⟨l, hl, htokens⟩ := h.line_eq
  exact ⟨l, hl, htokens.trans (List.append_nil passed)⟩

theorem Reaches.split (h : Reaches source lines no passed rest c) :
    ∃ inner outer, c.Split no inner outer := by
  induction h with
  | start _ => exact ⟨_, _, .start (by simp) rfl⟩
  | token _ ih =>
      obtain ⟨inner, outer, hsplit⟩ := ih
      exact (hsplit.token source _ _ _).1
  | line _ _ ih =>
      obtain ⟨inner, outer, hsplit⟩ := ih
      exact ⟨_, _, hsplit.next⟩

/-- **The level is the number of marks.** -/
theorem Reaches.level_eq (h : Reaches source lines no passed rest c) :
    c.level = c.stack.countP (·.indents) := by
  obtain ⟨inner, outer, hsplit⟩ := h.split
  exact hsplit.countP_eq

/-- Behind a line nothing is marked, or the top of the stack is, which the line has opened and which
was not marked before. -/
theorem Reaches.endLine_cases (h : Reaches source lines no passed rest c) :
    c.endLine = c.toTally ∧ (∀ o ∈ c.stack, o.line ≠ no) ∨
      ∃ o outer, c.stack = o :: outer ∧ o.line = no ∧ o.indents = false ∧
        c.endLine = ⟨{ o with indents := true } :: outer, c.level + 1⟩ := by
  obtain ⟨inner, outer, hsplit⟩ := h.split
  cases inner with
  | nil =>
      refine .inl ⟨hsplit.endLine_nil, fun o ho => ?_⟩
      rw [hsplit.stack_eq] at ho
      exact Nat.ne_of_lt (hsplit.above o ho)
  | cons o inner =>
      obtain ⟨hline, hmark⟩ := hsplit.own o List.mem_cons_self
      exact .inr ⟨o, inner ++ outer, hsplit.stack_eq, hline, hmark, hsplit.endLine_cons⟩

end

/-! ## The rows of the layout -/

/-- The closing delimiters that tokens begin with. -/
def closersOf (ts : List (Located RawToken)) : List (Located RawToken) :=
  ts.takeWhile (·.value.kind.closes?.isSome)

theorem leadingClosers_map (source : List Char) (ts : List (Located RawToken)) :
    leadingClosers (ts.map (Piece.ofToken source)) = (closersOf ts).length := by
  rw [leadingClosers, List.takeWhile_map, List.length_map]
  rfl

theorem closersOf_eq_self {ts : List (Located RawToken)}
    (h : ts.all (·.value.kind.closes?.isSome) = true) : closersOf ts = ts :=
  List.takeWhile_eq_self_iff.mpr (List.all_eq_true.mp h)

theorem closersOf_append {ts us : List (Located RawToken)}
    (h : ts.all (·.value.kind.closes?.isSome) = false) : closersOf (ts ++ us) = closersOf ts := by
  induction ts with
  | nil => cases h
  | cons t ts ih =>
      rw [List.cons_append, closersOf, closersOf, List.takeWhile_cons, List.takeWhile_cons]
      split
      · rename_i ht
        rw [List.all_cons, ht, Bool.true_and] at h
        exact congrArg _ (ih h)
      · rfl

theorem closersOf_snoc {ts : List (Located RawToken)} {t : Located RawToken}
    (ht : t.value.kind.closes?.isSome = false) : closersOf (ts ++ [t]) = closersOf ts := by
  cases h : ts.all (·.value.kind.closes?.isSome) with
  | false => exact closersOf_append h
  | true =>
      rw [closersOf, List.takeWhile_append_of_pos (List.all_eq_true.mp h),
        List.takeWhile_cons_of_neg (by simp [ht]), List.append_nil, closersOf_eq_self h]

/-- What is open behind lines. -/
def openingsBelow (source : List Char) (lines : List SourceLine) : List Opening :=
  lines.foldl (fun os l => (arrangeRow os (l.tokens.map (Piece.ofToken source))).2) []

namespace LineTally

theorem level_map_opening (stack : List OpenDelimiter) :
    level (stack.map (·.opening)) = stack.countP (·.indents) := by
  rw [level, List.countP_map]
  rfl

theorem closed_stack (c : LineTally) : c.closed.stack = c.stack.tail := by
  rw [closed]
  split
  · rename_i h
    rw [h]
    rfl
  · rename_i h
    rw [h]
    rfl

theorem closed_leading (c : LineTally) : c.closed.leading = c.leading := by
  rw [closed]
  split <;> rfl

theorem closed_indent (c : LineTally) :
    c.closed.indent = if c.leading = true ∧ c.stack ≠ [] then c.closed.level else c.indent := by
  rw [closed]
  split
  · rename_i h
    simp [h]
  · rename_i h
    cases hl : c.leading <;> simp [h]

theorem closed_words (c : LineTally) : c.closed.words = c.words := by
  rw [closed]
  split <;> rfl

theorem token_words (source : List Char) (no : Nat) (traits : LineTraits) (t : Located RawToken)
    (next : Option Kind) (c : LineTally) : (c.token source no traits t next).words =
      c.words ++ [⟨spaceBefore traits (c.openings no) c.prev (Piece.ofToken source t) next,
        t.value.text⟩] := by
  show (c.behind _ _).words ++ [_] = _
  rw [behind]
  split
  · rfl
  split
  · rw [closed_words]
    rfl
  · rfl

theorem behind_of_closer {o : OpenDelimiter} {kind : Kind} (h : kind.closes?.isSome = true)
    (c : LineTally) : c.behind o kind = c.closed := by
  obtain ⟨b, hb⟩ := Option.isSome_iff_exists.mp h
  rw [behind, opens?_eq_none_of_closes? hb, if_pos h]
  rfl

theorem behind_of_other {o : OpenDelimiter} {kind : Kind} (h : kind.closes?.isSome = false)
    (c : LineTally) : (c.behind o kind).leading = false ∧ (c.behind o kind).indent = c.indent := by
  rw [behind, if_neg (by simp [h] : ¬ kind.closes?.isSome = true)]
  split <;> exact ⟨rfl, rfl⟩

/-- In a line in front of which `os` are open, the loop agrees with the layout: what is written
already and what the layout writes for the rest are the words of the whole line, and the depth is
the one behind the leading closers that have passed. -/
structure Arranges (source : List Char) (os : List Opening) (no : Nat)
    (passed rest : List (Located RawToken)) (c : LineTally) : Prop where
  words : ∀ line, line = (passed ++ rest).map (Piece.ofToken source) →
    arrangeWords (.ofLine line) ⟨os, []⟩ none line =
      (c.words ++ (arrangeWords (.ofLine line) (c.openings no) c.prev
          (rest.map (Piece.ofToken source))).1,
        (arrangeWords (.ofLine line) (c.openings no) c.prev
          (rest.map (Piece.ofToken source))).2)
  leading : c.leading = passed.all (·.value.kind.closes?.isSome)
  stack : c.leading = true → c.stack.map (·.opening) = os.drop passed.length
  indent : c.indent = level (os.drop (closersOf passed).length)

section
variable {source : List Char} {os : List Opening} {no : Nat} {passed rest : List (Located RawToken)}
  {c : LineTally} {inner outer : List OpenDelimiter}

theorem Arranges.start {t : Tally} (h : Split no [] t.stack (.start t))
    (rest : List (Located RawToken)) :
    Arranges source (t.stack.map (·.opening)) no [] rest (.start t) where
  words := by
    rintro line rfl
    rw [h.openings_eq]
    rfl
  leading := rfl
  stack _ := rfl
  indent := h.level_eq.trans (level_map_opening t.stack).symm

theorem Arranges.token {t : Located RawToken} (h : Arranges source os no passed (t :: rest) c)
    (hsplit : Split no inner outer c) (traits : LineTraits)
    (htraits : traits = .ofLine ((passed ++ t :: rest).map (Piece.ofToken source))) :
    Arranges source os no (passed ++ [t]) rest
      (c.token source no traits t (rest.head?.map (·.value.kind))) where
  words := by
    rintro line rfl
    rw [List.append_assoc, List.singleton_append, h.words _ rfl, (hsplit.token source _ _ _).2,
      ← htraits, List.map_cons, arrangeWords, List.head?_map, Option.map_map, token_words,
      List.append_assoc]
    rfl
  leading := by
    show (c.behind _ t.value.kind).leading = _
    rw [List.all_append, ← h.leading]
    cases hc : t.value.kind.closes?.isSome with
    | true => rw [behind_of_closer hc, closed_leading]; simp [hc]
    | false => rw [(behind_of_other hc c).1]; simp [hc]
  stack := by
    show (c.behind _ t.value.kind).leading = true → (c.behind _ t.value.kind).stack.map _ = _
    cases hc : t.value.kind.closes?.isSome with
    | true =>
        rw [behind_of_closer hc, closed_leading, closed_stack]
        intro hleading
        rw [List.map_tail, h.stack hleading, List.tail_drop, List.length_append]
        rfl
    | false =>
        rw [(behind_of_other hc c).1]
        exact fun hfalse => absurd hfalse Bool.false_ne_true
  indent := by
    show (c.behind _ t.value.kind).indent = _
    cases hc : t.value.kind.closes?.isSome with
    | false => rw [(behind_of_other hc c).2, closersOf_snoc hc, h.indent]
    | true =>
        obtain ⟨⟨inner', outer', hclosed⟩, _⟩ := hsplit.closed
        rw [behind_of_closer hc, closed_indent]
        cases hl : passed.all (·.value.kind.closes?.isSome) with
        | false =>
            rw [if_neg fun hcond => by simp [h.leading, hl] at hcond, closersOf_append hl, h.indent]
        | true =>
            have hleading : c.leading = true := h.leading.trans hl
            have hall : (passed ++ [t]).all (·.value.kind.closes?.isSome) = true := by
              rw [List.all_append, hl]
              simpa using hc
            have hstack := h.stack hleading
            rw [closersOf_eq_self hall, List.length_append, List.length_singleton, ← List.tail_drop,
              ← hstack, ← List.map_tail, ← closed_stack, level_map_opening, ← hclosed.countP_eq]
            split
            · rfl
            · rename_i hcond
              -- nothing is open that could be closed
              have hnone : c.stack = [] := by simpa [hleading] using hcond
              rw [h.indent, closersOf_eq_self hl, ← hstack, hclosed.countP_eq, closed_stack, hnone]
              rfl

end

end LineTally

theorem openingsBelow_take_succ {source : List Char} {lines : List SourceLine} {no : Nat}
    {l : SourceLine} (h : lines[no]? = some l) :
    openingsBelow source (lines.take (no + 1)) =
      (arrangeRow (openingsBelow source (lines.take no))
        (l.tokens.map (Piece.ofToken source))).2 := by
  rw [openingsBelow, List.take_add_one, h, List.foldl_append]
  rfl

section
variable {source : List Char} {lines : List SourceLine} {no : Nat}
  {passed rest : List (Located RawToken)} {c : LineTally}

/-- At its end, a line has been arranged as the layout does it. -/
theorem LineTally.Arranges.arrangeRow_eq {os : List Opening} {inner outer : List OpenDelimiter}
    (h : c.Arranges source os no passed []) (hsplit : c.Split no inner outer) :
    arrangeRow os (passed.map (Piece.ofToken source)) =
      (c.row (passed.map (Piece.ofToken source)), c.endLine.stack.map (·.opening)) := by
  have hwords := h.words _ rfl
  rw [List.append_nil] at hwords
  rw [arrangeRow, hwords, hsplit.endLine_opening, row, rowDepth, leadingClosers_map, ← h.indent]
  show (_, _) = (Row.mk _ _, _)
  rw [List.map_nil, arrangeWords, List.append_nil]

theorem Reaches.arranges (h : Reaches source lines no passed rest c) :
    c.Arranges source (openingsBelow source (lines.take no)) no passed rest := by
  induction h with
  | start _ =>
      exact .start (@LineTally.Split.start 0 ⟨[], 0⟩ (by simp) rfl) _
  | token hreach ih =>
      obtain ⟨inner, outer, hsplit⟩ := hreach.split
      exact ih.token hsplit _ rfl
  | @line no passed c l hreach _ ih =>
      obtain ⟨inner, outer, hsplit⟩ := hreach.split
      obtain ⟨above, habove, rfl⟩ := hreach.whole_line
      rw [openingsBelow_take_succ habove, ih.arrangeRow_eq hsplit]
      exact .start hsplit.next _

theorem setSourceLines_getElem? (source : List Char) (os : List Opening) (lines : List SourceLine)
    (no : Nat) : ((setSourceLines source os lines).map (·.pageRow.row))[no]? =
      lines[no]?.map fun l => (arrangeRow ((lines.take no).foldl
        (fun os l => (arrangeRow os (l.tokens.map (Piece.ofToken source))).2) os)
          (l.tokens.map (Piece.ofToken source))).1 := by
  induction lines generalizing os no with
  | nil => rfl
  | cons l lines ih =>
      cases no with
      | zero => exact congrArg (some ·.row) (pageRow_setLine os _ _)
      | succ no => exact ih _ no

/-- **The loop writes the rows of the layout.** -/
theorem Reaches.row_eq (h : Reaches source lines no passed [] c) :
    ((setSourceLines source [] lines).map (·.pageRow.row))[no]? =
      some (c.row (passed.map (Piece.ofToken source))) := by
  obtain ⟨inner, outer, hsplit⟩ := h.split
  obtain ⟨l, hl, rfl⟩ := h.whole_line
  have harranged := h.arranges.arrangeRow_eq hsplit
  rw [setSourceLines_getElem?, hl, Option.map_some]
  exact congrArg (some ·.1) harranged

theorem Reaches.exists_behind {line : List (Located RawToken)}
    (h : Reaches source lines no [] line c) (hline : line = passed ++ rest) :
    ∃ c, Reaches source lines no passed rest c := by
  induction passed using List.reverseRecOn generalizing rest with
  | nil =>
      rw [hline] at h
      exact ⟨c, h⟩
  | append_singleton passed t ih =>
      have hsplit : line = passed ++ t :: rest := by rw [hline, List.append_assoc]; rfl
      obtain ⟨c, hc⟩ := ih hsplit
      exact ⟨_, hc.token⟩

/-- The loop comes by at every place. -/
theorem exists_reaches {l : SourceLine} (hl : lines[no]? = some l)
    (htokens : l.tokens = passed ++ rest) : ∃ c, Reaches source lines no passed rest c := by
  induction no generalizing l passed rest with
  | zero => exact (Reaches.start hl).exists_behind htokens
  | succ no ih =>
      have hlt : no < lines.length := by
        have := (List.getElem?_eq_some_iff.mp hl).1
        omega
      obtain ⟨c, hc⟩ := ih (List.getElem?_eq_getElem hlt) (List.append_nil _).symm
      exact (Reaches.line hc hl).exists_behind htokens

end

end MethodSkeleton
