/-
# `MethodSkeleton.Proofs.Signature.SinglePass` — one look ahead instead of two attempts

A signature is read by trying both shapes, each from the first token, and of the first attempt
nothing but its success is used.  `readInOnePass` reads the header once and then lets the next
token choose: an opening parenthesis can only begin a list of results, and nothing else can.
`parseSignature_single_pass` says that the two ways agree, in what they accept and in every
error, and that no list of tokens has both shapes.

Both shapes read the same header, so behind a header everything hangs on that one token.  A
bare result never begins with a parenthesis (`readSlot_resultType_leftParen`), and a list that
does not begin with one is refused right there (`readResultList_of_ne`); this is why an error
within a bare result is not the one reported.
-/
import MethodSkeleton.Proofs.Signature.Acceptance

namespace MethodSkeleton

/-- Reads a signature from its tokens, without a second attempt. -/
def readInOnePass (ts : Tokens) : Except ParseError Method := do
  let stop := endPosition ts
  let (method, rest) ← readHeader stop ts
  let next := (nextToken stop rest).1
  if next.value = .leftParen then
    let (results, _) ← readResultList stop rest
    return { method with results := results }
  else
    match readSlot .resultType stop .opening [] rest with
    | .ok (slot, _) => return { method with results := slot.result?.toList }
    | .error _ => .error ⟨.resultsNotOpened next.value, next.span⟩

/-! ## The token behind the header -/

variable {stop : Nat} {ts rest : Tokens} {m : Method} {e : ParseError}

/-- A bare result does not begin with a parenthesis. -/
theorem readSlot_resultType_leftParen (h : (nextToken stop ts).1.value = .leftParen) :
    ∃ e, readSlot .resultType stop .opening [] ts = .error e := by
  cases ts with
  | nil => cases h
  | cons t ts =>
      have ht : t.value = .leftParen := h
      refine ⟨⟨.unexpectedToken .resultType .leftParen, t.span⟩, ?_⟩
      simp [readSlot, ht, SlotState.shift?, closeSlot, SlotContext.terminator?, Except.map]

/-- A list of results that does not begin with a parenthesis is refused at its first token. -/
theorem readResultList_of_ne (h : (nextToken stop ts).1.value ≠ .leftParen) :
    readResultList stop ts =
      .error ⟨.resultsNotOpened (nextToken stop ts).1.value, (nextToken stop ts).1.span⟩ := by
  simp [readResultList, accept, Token.only, h, bind, Except.bind]

/-! ## Behind a header -/

theorem readBareResult_of_header (h : readHeader (endPosition ts) ts = .ok (m, rest)) :
    readBareResult ts = (readSlot .resultType (endPosition ts) .opening [] rest).map
      fun read => { m with results := read.1.result?.toList } := by
  rw [readBareResult, h]
  simp only [bind, Except.bind]
  cases readSlot .resultType (endPosition ts) .opening [] rest <;> rfl

theorem readParenthesizedResults_of_header (h : readHeader (endPosition ts) ts = .ok (m, rest)) :
    readParenthesizedResults ts = (readResultList (endPosition ts) rest).map
      fun read => { m with results := read.1 } := by
  rw [readParenthesizedResults, h]
  simp only [bind, Except.bind]
  cases readResultList (endPosition ts) rest <;> rfl

theorem readBareResult_of_header_error (h : readHeader (endPosition ts) ts = .error e) :
    readBareResult ts = .error e := by
  rw [readBareResult, h]
  rfl

theorem readParenthesizedResults_of_header_error
    (h : readHeader (endPosition ts) ts = .error e) :
    readParenthesizedResults ts = .error e := by
  rw [readParenthesizedResults, h]
  rfl

/-! ## Two attempts -/

/-- No list of tokens has both shapes. -/
theorem shapes_disjoint (ts : Tokens) :
    ¬ ((∃ m, readBareResult ts = .ok m) ∧ ∃ m, readParenthesizedResults ts = .ok m) := by
  rintro ⟨⟨m, hbare⟩, m', hparen⟩
  cases hh : readHeader (endPosition ts) ts with
  | error e =>
      rw [readBareResult_of_header_error hh] at hbare
      cases hbare
  | ok read =>
      obtain ⟨header, rest⟩ := read
      by_cases hnext : (nextToken (endPosition ts) rest).1.value = .leftParen
      · obtain ⟨e, he⟩ := readSlot_resultType_leftParen hnext
        rw [readBareResult_of_header hh, he] at hbare
        cases hbare
      · rw [readParenthesizedResults_of_header hh, readResultList_of_ne hnext] at hparen
        cases hparen

/-- The first attempt, and the second where the first fails, come to what one pass reads. -/
theorem readInOnePass_eq (ts : Tokens) :
    readInOnePass ts =
      match readBareResult ts with
      | .ok m => .ok m
      | .error _ => readParenthesizedResults ts := by
  cases hh : readHeader (endPosition ts) ts with
  | error e =>
      rw [readBareResult_of_header_error hh, readParenthesizedResults_of_header_error hh,
        readInOnePass, hh]
      rfl
  | ok read =>
      obtain ⟨header, rest⟩ := read
      rw [readBareResult_of_header hh, readParenthesizedResults_of_header hh, readInOnePass, hh]
      show (if (nextToken (endPosition ts) rest).1.value = .leftParen then _ else _) = _
      split
      · rename_i hnext
        obtain ⟨e, he⟩ := readSlot_resultType_leftParen hnext
        rw [he]
        show Except.bind _ _ = Except.map _ _
        cases readResultList (endPosition ts) rest <;> rfl
      · rename_i hnext
        rw [readResultList_of_ne hnext]
        cases readSlot .resultType (endPosition ts) .opening [] rest <;> rfl

/-- A text declares a method exactly if its tokens have one of the two shapes. -/
theorem parseSignature_ok_iff {source : String} {m : Method} :
    parseSignature source = .ok m ↔
      readBareResult (tokenize source) = .ok m ∨
        readParenthesizedResults (tokenize source) = .ok m := by
  have hdisjoint := shapes_disjoint (tokenize source)
  rw [parseSignature]
  cases hbare : readBareResult (tokenize source) with
  | error e => simp
  | ok m' =>
      have hparen : readParenthesizedResults (tokenize source) ≠ .ok m :=
        fun h => hdisjoint ⟨⟨m', hbare⟩, m, h⟩
      simp [hparen]

/-! ## From the tokens of a text -/

theorem tokensOf_locate (position : Nat) (xs : List Lexeme) :
    (tokensOf (Lexeme.locate position xs)).map (·.value) = xs.filterMap Token.ofLexeme? := by
  induction xs generalizing position with
  | nil => rfl
  | cons x xs ih =>
      simp only [tokensOf] at ih ⊢
      cases hx : Token.ofLexeme? x with
      | none => simp [Lexeme.locate, hx, ih]
      | some t => simp [Lexeme.locate, hx, ih]

/-- The tokens of a text, without their places. -/
theorem tokenize_values (source : String) :
    (tokenize source).map (·.value) =
      (lexemes source.toList).filterMap Token.ofLexeme? ++ [.endOfInput] := by
  rw [tokenize, List.map_append, tokensOf_locate]
  rfl

theorem parseSignature_of_beginsBare {source : String} {o : Outline}
    (h : BeginsBare o ((tokenize source).map (·.value))) :
    parseSignature source = .ok o.method :=
  parseSignature_ok_iff.mpr (.inl (readBareResult_ok_iff.mpr ⟨o, rfl, h⟩))

theorem parseSignature_of_beginsParenthesized {source : String} {o : Outline}
    (h : BeginsParenthesized o ((tokenize source).map (·.value))) :
    parseSignature source = .ok o.method :=
  parseSignature_ok_iff.mpr (.inr (readParenthesizedResults_ok_iff.mpr ⟨o, rfl, h⟩))

/-- **Two attempts are one pass.**  At most one of the two shapes fits, so which is tried first
does not matter for what is accepted, and a text is read as in one pass: the error of the
header if there is one; behind a header whatever the list of results gives if a parenthesis
comes next; and otherwise the bare result, or, if that is not accepted, the complaint that the
token behind the header opens no list. -/
theorem parseSignature_single_pass (source : String) :
    ¬ ((∃ m, readBareResult (tokenize source) = .ok m) ∧
        ∃ m, readParenthesizedResults (tokenize source) = .ok m) ∧
    (∀ m, parseSignature source = .ok m ↔
      readBareResult (tokenize source) = .ok m ∨
        readParenthesizedResults (tokenize source) = .ok m) ∧
    parseSignature source = readInOnePass (tokenize source) := by
  refine ⟨shapes_disjoint _, fun m => parseSignature_ok_iff, ?_⟩
  exact (readInOnePass_eq _).symm

end MethodSkeleton
