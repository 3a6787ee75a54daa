/-
# `MethodSkeleton.Proofs.Signature.Drawing` — all ways of drawing tokens agree

A stream can be asked for its next token, for its next item, for all items that are left, and for
their number.  Whatever has been asked before and in whatever order, it answers as the list of the
tokens of its text would, less those that are taken (`stream_answers`): no token is skipped and none
is given twice, and once an answer has shown the end, all later ones show nothing else.

The invariant is `Holds`: the lexemes in front of a stream hold exactly the tokens that are left,
and a stream that has answered its end has no lexemes.  One draw keeps it (`Holds.next`), and so does
one question of any kind (`Holds.ask`); a list of questions goes by induction (`Holds.askAll`).
-/
import MethodSkeleton.Proofs.Signature.Coverage
import MethodSkeleton.Signature.TokenStream

namespace MethodSkeleton

namespace TokenStream

/-! ## Questions and answers -/

/-- What a stream can be asked for: a token, an item, all items that are left, or their number. -/
inductive Question
  | token
  | item
  | rest
  | count
deriving DecidableEq, Repr

/-- What it answers. -/
inductive Answer
  | token (t : Located Token)
  | item (t? : Option (Located Token))
  | rest (ts : Tokens)
  | count (n : Nat)
deriving DecidableEq, Repr

/-- The question of an answer. -/
def Answer.question : Answer → Question
  | token _ => .token
  | item _ => .item
  | rest _ => .rest
  | count _ => .count

/-- How many tokens an answer takes.  The end of input is not taken, and what is counted is. -/
def Answer.taken : Answer → Nat
  | token t => if t.value = .endOfInput then 0 else 1
  | item t? => t?.toList.length
  | rest ts => ts.length
  | count n => n

/-- Whether the end has been reached with an answer. -/
def Answer.ends : Answer → Bool
  | token t => t.value = .endOfInput
  | item t? => t?.isNone
  | rest _ | count _ => true

/-- How many tokens several answers take. -/
def takenBy : List Answer → Nat
  | [] => 0
  | a :: answers => a.taken + takenBy answers

/-- The answer to a question, and the stream behind it. -/
def ask (s : TokenStream) : Question → Answer × TokenStream
  | .token => (.token s.next.1, s.next.2)
  | .item => (.item s.next?.1, s.next?.2)
  | .rest => (.rest s.remaining, s.drained)
  | .count => (.count s.count, s.drained)

/-- The answers to one question after the other. -/
def askAll (s : TokenStream) : List Question → List Answer
  | [] => []
  | q :: qs => (s.ask q).1 :: (s.ask q).2.askAll qs

/-- What a list of tokens answers, with the end of input at `length` behind it. -/
def answerOf (length : Nat) (left : Tokens) : Question → Answer
  | .token => .token (nextToken length left).1
  | .item => .item left.head?
  | .rest => .rest left
  | .count => .count left.length

theorem question_ask (s : TokenStream) (q : Question) : (s.ask q).1.question = q := by
  cases q <;> rfl

theorem map_question_askAll (s : TokenStream) (qs : List Question) :
    (s.askAll qs).map Answer.question = qs := by
  induction qs generalizing s with
  | nil => rfl
  | cons q qs ih => rw [askAll, List.map_cons, question_ask, ih]

/-! ## One draw -/

/-- The lexemes in front of the stream hold the tokens `left` and no others, the text has the
length `length`, and the end has not been answered in front of a lexeme. -/
structure Holds (length : Nat) (left : Tokens) (s : TokenStream) : Prop where
  tokens : tokensOf (Lexeme.locate s.position s.rest) = left
  size : s.length = length
  finished : s.ended = true → s.rest = []

theorem holds_ofString (source : String) :
    Holds (byteWidth source.toList) (tokensOf (Lexeme.locate 0 (lexemes source.toList)))
      (ofString source) where
  tokens := rfl
  size := rfl
  finished := fun h => by cases h

section
variable {length : Nat} {left : Tokens} {s : TokenStream}

/-- No token that is left is the end of input. -/
theorem Holds.ne_endOfInput (h : Holds length left s) : ∀ t ∈ left, t.value ≠ .endOfInput := by
  intro t ht hend
  rw [← h.tokens] at ht
  obtain ⟨x, _, htoken, _⟩ := mem_tokensOf_iff.mp ht
  rw [hend] at htoken
  exact Token.ofLexeme?_ne_endOfInput x.value htoken

/-- What is no token is passed over, in front of a token and in front of the end. -/
theorem draw_eq (length : Nat) (xs : List Lexeme) (position : Nat) :
    (draw length xs position).1 =
        (nextToken length (tokensOf (Lexeme.locate position xs))).1 ∧
      Holds length (nextToken length (tokensOf (Lexeme.locate position xs))).2
        (draw length xs position).2 := by
  induction xs generalizing position with
  | nil => exact ⟨rfl, rfl, rfl, fun _ => rfl⟩
  | cons x xs ih =>
      cases hx : Token.ofLexeme? x with
      | none =>
          rw [tokensOf_locate_of_none hx]
          simp only [draw, hx]
          exact ih _
      | some t =>
          rw [tokensOf_locate_of_some hx]
          simp only [draw, hx]
          exact ⟨rfl, rfl, rfl, fun h => by cases h⟩

/-- A draw gives the first of the tokens that are left, and leaves the others. -/
theorem Holds.next (h : Holds length left s) :
    s.next.1 = (nextToken length left).1 ∧ Holds length (nextToken length left).2 s.next.2 := by
  obtain ⟨rfl, rfl, hfinished⟩ := h
  rw [TokenStream.next]
  split
  · rename_i hended
    rw [hfinished hended]
    refine ⟨rfl, ?_, rfl, hfinished⟩
    rw [hfinished hended]
    rfl
  · exact draw_eq _ _ _

/-- An item is the first of the tokens that are left, if there is one. -/
theorem Holds.next? (h : Holds length left s) :
    s.next?.1 = left.head? ∧ Holds length left.tail s.next?.2 := by
  obtain ⟨hfirst, hrest⟩ := h.next
  simp only [TokenStream.next?, hfirst]
  cases left with
  | nil => exact ⟨rfl, hrest⟩
  | cons t ts =>
      have ht : t.value ≠ .endOfInput := h.ne_endOfInput t List.mem_cons_self
      rw [nextToken, if_neg ht]
      exact ⟨rfl, hrest⟩

/-! ## All items -/

theorem fold_of_none {α : Type} {f : α → Located Token → α} (h : s.next?.1 = none) (a : α) :
    s.fold f a = (a, s.next?.2) := by
  rw [fold]
  split
  · rename_i hnext
    rw [hnext]
  · rename_i hnext
    rw [hnext] at h
    cases h

theorem fold_of_some {α : Type} {f : α → Located Token → α} {t : Located Token}
    (h : s.next?.1 = some t) (a : α) : s.fold f a = s.next?.2.fold f (f a t) := by
  rw [fold]
  split
  · rename_i hnext
    rw [hnext] at h
    cases h
  · rename_i hnext
    rw [hnext] at h
    cases h
    rw [hnext]

/-- Item after item, a fold takes all tokens that are left. -/
theorem Holds.fold {α : Type} (f : α → Located Token → α) (a : α) (h : Holds length left s) :
    (s.fold f a).1 = left.foldl f a ∧ Holds length [] (s.fold f a).2 := by
  induction left generalizing s a with
  | nil =>
      obtain ⟨hnone, hrest⟩ := h.next?
      rw [fold_of_none hnone]
      exact ⟨rfl, hrest⟩
  | cons t ts ih =>
      obtain ⟨hsome, hrest⟩ := h.next?
      rw [fold_of_some hsome]
      exact ih (f a t) hrest

theorem Holds.remaining (h : Holds length left s) : s.remaining = left := by
  rw [TokenStream.remaining, (h.fold _ _).1, List.foldl_push_eq_append]
  simp

theorem Holds.count (h : Holds length left s) : s.count = left.length := by
  rw [TokenStream.count, (h.fold _ _).1]
  simp

theorem Holds.drained (h : Holds length left s) : Holds length [] s.drained := (h.fold _ _).2

/-! ## Any questions -/

/-- **One question.**  The answer is that of the list of the tokens that are left; as many of them
as it takes are passed, and the others are left. -/
theorem Holds.ask (h : Holds length left s) (q : Question) :
    (s.ask q).1 = answerOf length left q ∧
      ∃ passed left', left = passed ++ left' ∧ (s.ask q).1.taken = passed.length ∧
        Holds length left' (s.ask q).2 := by
  cases q with
  | token =>
      obtain ⟨hfirst, hrest⟩ := h.next
      refine ⟨congrArg Answer.token hfirst, ?_⟩
      simp only [TokenStream.ask, hfirst, Answer.taken]
      cases left with
      | nil => exact ⟨[], [], rfl, rfl, hrest⟩
      | cons t ts => exact ⟨[t], ts, rfl, if_neg (h.ne_endOfInput t List.mem_cons_self), hrest⟩
  | item =>
      obtain ⟨hfirst, hrest⟩ := h.next?
      refine ⟨congrArg Answer.item hfirst, ?_⟩
      simp only [TokenStream.ask, hfirst, Answer.taken]
      cases left with
      | nil => exact ⟨[], [], rfl, rfl, hrest⟩
      | cons t ts => exact ⟨[t], ts, rfl, rfl, hrest⟩
  | rest =>
      refine ⟨congrArg Answer.rest h.remaining, left, [], (List.append_nil left).symm, ?_, h.drained⟩
      exact congrArg List.length h.remaining
  | count =>
      exact ⟨congrArg Answer.count h.count, left, [], (List.append_nil left).symm, h.count, h.drained⟩

/-- With an answer that shows the end, nothing is left. -/
theorem Holds.ask_of_ends (h : Holds length left s) {q : Question}
    (hends : (s.ask q).1.ends = true) : Holds length [] (s.ask q).2 := by
  cases q with
  | token =>
      obtain ⟨hfirst, hrest⟩ := h.next
      cases left with
      | nil => exact hrest
      | cons t ts =>
          have ht : t.value ≠ .endOfInput := h.ne_endOfInput t List.mem_cons_self
          simp only [TokenStream.ask, hfirst, Answer.ends, decide_eq_true_eq] at hends
          exact absurd hends ht
  | item =>
      obtain ⟨hfirst, hrest⟩ := h.next?
      cases left with
      | nil => exact hrest
      | cons t ts =>
          simp only [TokenStream.ask, hfirst, Answer.ends] at hends
          cases hends
  | rest => exact h.drained
  | count => exact h.drained

/-- **Any questions.**  Behind the answers `before`, as many tokens are passed as they take, and the
stream holds the others. -/
theorem Holds.askAll (h : Holds length left s) {qs : List Question} {before after : List Answer}
    {a : Answer} (heq : s.askAll qs = before ++ a :: after) :
    ∃ passed left' s' q qs', left = passed ++ left' ∧ takenBy before = passed.length ∧
      Holds length left' s' ∧ a = (s'.ask q).1 ∧ after = (s'.ask q).2.askAll qs' := by
  induction before generalizing s qs left with
  | nil =>
      cases qs with
      | nil => cases heq
      | cons q qs =>
          obtain ⟨rfl, rfl⟩ := List.cons.inj heq
          exact ⟨[], left, s, q, qs, rfl, rfl, h, rfl, rfl⟩
  | cons b before ih =>
      cases qs with
      | nil => cases heq
      | cons q qs =>
          obtain ⟨rfl, hrest⟩ := List.cons.inj heq
          obtain ⟨_, passed, left', rfl, htaken, h'⟩ := h.ask q
          obtain ⟨passed', left'', s', q', qs', rfl, htaken', h'', ha, hafter⟩ := ih h' hrest
          -- What the first answer takes is passed in front of what the others take.
          refine ⟨passed ++ passed', left'', s', q', qs', (List.append_assoc ..).symm, ?_, h'', ha,
            hafter⟩
          rw [takenBy, htaken, htaken', List.length_append]

/-- Where nothing is left, every answer shows the end. -/
theorem Holds.askAll_nil (h : Holds length [] s) (qs : List Question) :
    ∀ a ∈ s.askAll qs,
      a = .token (endAt length) ∨ a = .item none ∨ a = .rest [] ∨ a = .count 0 := by
  induction qs generalizing s with
  | nil => simp [TokenStream.askAll]
  | cons q qs ih =>
      obtain ⟨hanswer, passed, left', hsplit, _, h'⟩ := h.ask q
      obtain ⟨-, rfl⟩ := List.append_eq_nil_iff.mp hsplit.symm
      refine List.forall_mem_cons.mpr ⟨?_, ih h'⟩
      rw [hanswer]
      cases q <;> simp [answerOf, nextToken]

end

/-! ## The whole text -/

/-- What is known of the answer `a`, behind the answers `before` and in front of the answers `after`,
when the tokens `left` are left: these are the tokens of the text behind as many as the answers
before have taken, and the answer is the one that they give.  An item is never the end of input, and
there is none exactly where only the end of input is left.  Once an answer shows the end, all answers
behind it show nothing else. -/
structure Answer.InTurn (source : String) (before : List Answer) (a : Answer) (after : List Answer)
    (left : Tokens) : Prop where
  place : (tokenize source).drop (takenBy before) = left ++ [endAt (byteWidth source.toList)]
  tokens : ∀ t ∈ left, t.value ≠ .endOfInput
  answer : a = answerOf (byteWidth source.toList) left a.question
  item : ∀ t?, a = .item t? → (∀ t ∈ t?, t.value ≠ .endOfInput) ∧
    (t? = none ↔ (tokenize source).drop (takenBy before) = [endAt (byteWidth source.toList)])
  ended : a.ends = true → ∀ b ∈ after,
    b = .token (endAt (byteWidth source.toList)) ∨ b = .item none ∨ b = .rest [] ∨ b = .count 0

/-- **All ways of drawing tokens agree.**  Whatever a stream over a text is asked, in any order, each
answer is of the kind asked for and is the one that the tokens of the text give behind those taken
before. -/
theorem stream_answers (source : String) (questions : List Question) :
    let answers := (ofString source).askAll questions
    answers.map Answer.question = questions ∧
      ∀ before a after, answers = before ++ a :: after →
        ∃ left, Answer.InTurn source before a after left := by
  intro answers
  refine ⟨map_question_askAll _ _, fun before a after heq => ?_⟩
  obtain ⟨passed, left, s, q, qs, hsplit, htaken, h, rfl, rfl⟩ :=
    (holds_ofString source).askAll heq
  obtain ⟨hanswer, -⟩ := h.ask q
  have hplace : (tokenize source).drop (takenBy before) =
      left ++ [endAt (byteWidth source.toList)] := by
    rw [tokenize, hsplit, htaken, List.append_assoc, List.drop_left]
  refine ⟨left, hplace, h.ne_endOfInput, ?_, fun t? ht => ?_, fun hends => ?_⟩
  · rw [question_ask]
    exact hanswer
  · have hq : q = .item := by
      rw [← question_ask s q, ht]
      rfl
    subst hq
    obtain rfl : left.head? = t? := Answer.item.inj (hanswer.symm.trans ht)
    refine ⟨fun t ht => h.ne_endOfInput t (List.mem_of_head? ht), ?_⟩
    rw [hplace, List.head?_eq_none_iff, List.append_left_eq_self]
  · exact (h.ask_of_ends hends).askAll_nil qs

/-- A call with a comment in it, broken off in a string. -/
def brokenCall : String := "f( // x\n\"y"

theorem stream_answers_brokenCall :
    let before : List Answer := [.item (some ⟨⟨0, 1⟩, .identifier "f"⟩), .token ⟨⟨1, 2⟩, .leftParen⟩]
    let after : List Answer := [.token (endAt 10), .item none, .rest []]
    (ofString brokenCall).askAll [.item, .token, .count, .token, .item, .rest] =
        before ++ .count 1 :: after ∧
      ∃ left, Answer.InTurn brokenCall before (.count 1) after left := by
  intro before after
  have hanswers : (ofString brokenCall).askAll [.item, .token, .count, .token, .item, .rest] =
      before ++ .count 1 :: after := by decide +kernel
  exact ⟨hanswers, (stream_answers _ _).2 _ _ _ hanswers⟩

end TokenStream

end MethodSkeleton
