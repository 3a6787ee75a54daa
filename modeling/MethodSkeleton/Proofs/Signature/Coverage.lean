/-
# `MethodSkeleton.Proofs.Signature.Coverage` — nothing of a text is lost among its tokens

The tokens of a text are what is written in their spans, one behind the other, and what stands
between them is trivia (`tokenize_covers`).  That holds of every text: what cannot be read is a
token too, and the end of input stands alone at the end.

Tokens are lexemes or nothing, so their spans and texts are those of lexemes.  What stands in front
of a token is found by induction over the lexemes, with the trivia passed since the last token
carried along (`isTrivia_tokenGaps`).
-/
import MethodSkeleton.Proofs.Source.Places
import MethodSkeleton.Proofs.Source.Trivia
import MethodSkeleton.Proofs.Source.Words
import MethodSkeleton.Signature.Slot

namespace MethodSkeleton

/-! ## The token of a lexeme -/

/-- Blanks, line breaks and comments are nothing to the grammar, and all else is something. -/
theorem Token.ofLexeme?_eq_none_iff {x : Lexeme} : Token.ofLexeme? x = none ↔
    x.is = .blank ∨ ∃ kind, x.is = .token kind ∧ kind.isTrivia = true := by
  obtain ⟨is, text⟩ := x
  cases is with
  | blank => simp [Token.ofLexeme?]
  | fault why => simp [Token.ofLexeme?]
  | token kind => cases kind <;> simp [Token.ofLexeme?, Kind.isTrivia, Kind.isComment]

theorem Token.ofWord_text (word : String) : (Token.ofWord word).text = word := by
  unfold Token.ofWord
  split
  · rename_i h
    exact h.symm
  · split <;> rfl

/-- The text of a token is that of its lexeme. -/
theorem Token.text_of_ofLexeme? {x : Lexeme} {t : Token} {rest : List Char}
    (h : StandsBefore x rest) (ht : Token.ofLexeme? x = some t) : t.text.toList = x.text := by
  obtain ⟨is, text⟩ := x
  cases is with
  | blank => cases ht
  | fault why =>
      cases ht
      exact String.toList_ofList
  | token kind =>
      cases kind with
      | newline | lineComment | blockComment => cases ht
      | identifier =>
          obtain rfl := Option.some.inj ht
          rw [Token.ofWord_text, String.toList_ofList]
      | rawString | string | rune | number =>
          cases ht
          exact String.toList_ofList
      | _ =>
          have hall : (punctuation.all fun e => (Token.ofLexeme? ⟨.token e.2, e.1⟩).all fun t =>
              t.text.toList == e.1) = true := by decide
          have hone := List.all_eq_true.mp hall _ (h.spells.mem_punctuation rfl)
          rw [ht] at hone
          simpa using hone

theorem Token.ofWord_mem (word : String) :
    Token.ofWord word ∈ [.func, .unexpected word, .identifier word] := by
  unfold Token.ofWord
  split
  · simp
  · split <;> simp

/-- A word that is not reserved is an identifier to the grammar. -/
theorem Token.ofWord_eq_identifier_iff {word x : String} :
    Token.ofWord word = .identifier x ↔ word = x ∧ isKeyword x = false := by
  have hfunc : isKeyword "func" = true := by decide
  constructor
  · intro h
    unfold Token.ofWord at h
    split at h
    · cases h
    · split at h
      · cases h
      · rename_i hfree
        cases h
        exact ⟨rfl, Bool.not_eq_true _ ▸ hfree⟩
  · rintro ⟨rfl, hfree⟩
    have hne : word ≠ "func" := by
      rintro rfl
      rw [hfunc] at hfree
      cases hfree
    rw [Token.ofWord, if_neg hne, hfree]
    rfl

/-- The identifiers of a text are names. -/
theorem Token.isName_of_ofLexeme? {x : Lexeme} {name : String} {rest : List Char}
    (h : StandsBefore x rest) (ht : Token.ofLexeme? x = some (.identifier name)) : IsName name := by
  obtain ⟨is, text⟩ := x
  cases is with
  | blank => cases ht
  | fault why => cases ht
  | token kind =>
      cases kind with
      | identifier =>
          obtain ⟨rfl, hfree⟩ := Token.ofWord_eq_identifier_iff.mp (Option.some.inj ht)
          refine ⟨?_, hfree⟩
          rw [IsIdentifier, String.toList_ofList]
          exact h.spells
      | _ => cases ht

/-- No lexeme is the end of input. -/
theorem Token.ofLexeme?_ne_endOfInput (x : Lexeme) : Token.ofLexeme? x ≠ some .endOfInput := by
  obtain ⟨is, text⟩ := x
  intro ht
  cases is with
  | blank => cases ht
  | fault why => cases ht
  | token kind =>
      cases kind with
      | identifier =>
          have hmem := Token.ofWord_mem (String.ofList text)
          rw [Option.some.inj ht] at hmem
          simp at hmem
      | _ => cases ht

/-! ## The tokens of located lexemes -/

theorem mem_tokensOf_iff {xs : List (Located Lexeme)} {t : Located Token} :
    t ∈ tokensOf xs ↔ ∃ x ∈ xs, Token.ofLexeme? x.value = some t.value ∧ t.span = x.span := by
  rw [tokensOf, List.mem_filterMap]
  constructor
  · rintro ⟨x, hx, hm⟩
    obtain ⟨u, hu, rfl⟩ := Option.map_eq_some_iff.mp hm
    exact ⟨x, hx, hu, rfl⟩
  · rintro ⟨x, hx, hu, hs⟩
    exact ⟨x, hx, by rw [hu, Option.map_some, ← hs]⟩

theorem tokensOf_locate_of_none {x : Lexeme} (h : Token.ofLexeme? x = none) (position : Nat)
    (xs : List Lexeme) : tokensOf (Lexeme.locate position (x :: xs)) =
      tokensOf (Lexeme.locate (position + byteWidth x.text) xs) := by
  simp [tokensOf, Lexeme.locate, h]

theorem tokensOf_locate_of_some {x : Lexeme} {t : Token} (h : Token.ofLexeme? x = some t)
    (position : Nat) (xs : List Lexeme) : tokensOf (Lexeme.locate position (x :: xs)) =
      ⟨⟨position, position + byteWidth x.text⟩, t⟩ ::
        tokensOf (Lexeme.locate (position + byteWidth x.text) xs) := by
  simp [tokensOf, Lexeme.locate, h]

/-- Tokens stand one behind the other. -/
theorem pairwise_tokensOf (position : Nat) (xs : List Lexeme) :
    (tokensOf (Lexeme.locate position xs)).Pairwise fun t u => t.span.stop ≤ u.span.start := by
  refine (pairwise_locate position xs).filterMap _ fun x y h t ht u hu => ?_
  obtain ⟨_, _, rfl⟩ := Option.map_eq_some_iff.mp ht
  obtain ⟨_, _, rfl⟩ := Option.map_eq_some_iff.mp hu
  exact h

/-! ## Gaps -/

/-- The stretches in front of the tokens, the first of them from `position` on. -/
def tokenGaps : Nat → Tokens → List Span
  | _, [] => []
  | position, t :: ts => ⟨position, t.span.start⟩ :: tokenGaps t.span.stop ts

/-- In front of every token, and of the end, stands trivia.  Of the source, `before` reaches up to
the last token so far, and `gap` is what was passed since then. -/
theorem isTrivia_tokenGaps {source before gap : List Char} {xs : List Lexeme} (hxs : ReadsBack xs)
    (hsource : source = before ++ gap ++ Lexeme.spell xs)
    (hgap : IsTrivia (Lexeme.spell xs) gap) :
    ∀ span ∈ tokenGaps (byteWidth before)
        (tokensOf (Lexeme.locate (byteWidth (before ++ gap)) xs) ++ [endAt (byteWidth source)]),
      ∃ text after, IsSlice source span text after ∧ IsTrivia after text := by
  induction xs generalizing before gap with
  | nil =>
      have hslice : IsSlice source ⟨byteWidth before, byteWidth source⟩ gap [] :=
        ⟨before, hsource, by rw [hsource, show Lexeme.spell [] = [] from rfl, List.append_nil]⟩
      exact List.forall_mem_singleton.mpr ⟨gap, [], hslice, hgap⟩
  | cons x xs ih =>
      obtain ⟨hx, hxs⟩ := readsBack_cons_iff.mp hxs
      rw [spell_cons] at hsource hgap
      cases ht : Token.ofLexeme? x with
      | none =>
          have htrivia := hgap.append (hx.isTrivia (Token.ofLexeme?_eq_none_iff.mp ht))
          have hrest := @ih before (gap ++ x.text) hxs
            (by rw [hsource]; simp only [List.append_assoc]) htrivia
          rw [tokensOf_locate_of_none ht, ← byteWidth_append, List.append_assoc]
          exact hrest
      | some t =>
          have hslice : IsSlice source ⟨byteWidth before, byteWidth (before ++ gap)⟩ gap
              (x.text ++ Lexeme.spell xs) := ⟨before, hsource, rfl⟩
          have hrest := @ih (before ++ gap ++ x.text) [] hxs
            (by rw [hsource]; simp only [List.append_assoc, List.nil_append]) .nil
          rw [List.append_nil] at hrest
          rw [tokensOf_locate_of_some ht, ← byteWidth_append]
          exact List.forall_mem_cons.mpr ⟨⟨gap, _, hslice, hgap⟩, hrest⟩

/-! ## The whole text -/

/-- A token of a text is written in its span. -/
theorem isSlice_of_mem_tokensOf {source : List Char} {t : Located Token}
    (h : t ∈ tokensOf (Lexeme.locate 0 (lexemes source))) :
    t.span.start < t.span.stop ∧ ∃ after, IsSlice source t.span t.value.text.toList after := by
  obtain ⟨x, hx, ht, hspan⟩ := mem_tokensOf_iff.mp h
  obtain ⟨rest, hstand⟩ :=
    (readsBack_lexemes source).standsBefore x.value (value_mem_of_mem_locate hx)
  obtain ⟨after, hslice⟩ := @isSlice_locate [] _ x hx
  rw [List.nil_append, spell_lexemes, ← hspan, ← Token.text_of_ofLexeme? hstand ht] at hslice
  refine ⟨?_, after, hslice⟩
  obtain ⟨before, _, hspan⟩ := hslice
  rw [hspan, byteWidth_append, Token.text_of_ofLexeme? hstand ht]
  obtain ⟨c, tail, htext, _⟩ := hstand
  have hwidth : byteWidth x.value.text ≠ 0 := fun hzero => by
    rw [htext] at hzero
    exact List.cons_ne_nil c tail (byteWidth_eq_zero_iff.mp hzero)
  exact Nat.lt_add_of_pos_right (Nat.pos_of_ne_zero hwidth)

theorem isName_of_mem_tokenize {source x : String}
    (h : .identifier x ∈ (tokenize source).map (·.value)) : IsName x := by
  obtain ⟨t, ht, hvalue⟩ := List.mem_map.mp h
  rcases List.mem_append.mp ht with ht | ht
  · obtain ⟨y, hy, htoken, _⟩ := mem_tokensOf_iff.mp ht
    obtain ⟨rest, hstand⟩ :=
      (readsBack_lexemes source.toList).standsBefore y.value (value_mem_of_mem_locate hy)
    exact Token.isName_of_ofLexeme? hstand (hvalue ▸ htoken)
  · rw [List.mem_singleton.mp ht] at hvalue
    cases hvalue

/-- **No character is lost and none is counted twice.**  The tokens of a text are closed by one end
of input, at its end; the others stand in spans of the text that are not empty and lie one behind
the other, each of them holds exactly the text of its token, and in front of every token and of the
end there is nothing but trivia. -/
theorem tokenize_covers (source : String) :
    ∃ ts, tokenize source = ts ++ [endAt (byteWidth source.toList)] ∧
      (∀ t ∈ ts, t.value ≠ .endOfInput) ∧
      (∀ t ∈ ts, t.span.start < t.span.stop ∧
        ∃ after, IsSlice source.toList t.span t.value.text.toList after) ∧
      ts.Pairwise (fun t u => t.span.stop ≤ u.span.start) ∧
      ∀ span ∈ tokenGaps 0 (tokenize source),
        ∃ text after, IsSlice source.toList span text after ∧ IsTrivia after text := by
  refine ⟨_, rfl, ?_, fun t => isSlice_of_mem_tokensOf, pairwise_tokensOf _ _, ?_⟩
  · intro t ht hend
    obtain ⟨x, _, htoken, _⟩ := mem_tokensOf_iff.mp ht
    rw [hend] at htoken
    exact Token.ofLexeme?_ne_endOfInput x.value htoken
  · exact @isTrivia_tokenGaps _ [] [] _ (readsBack_lexemes source.toList)
      (spell_lexemes source.toList).symm .nil

end MethodSkeleton
