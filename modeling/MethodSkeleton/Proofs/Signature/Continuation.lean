/-
# `MethodSkeleton.Proofs.Signature.Continuation` — what follows a signature does not matter

A signature that ends in an opening brace or in the parenthesis of its results declares its method
whatever is written behind that character (`parseSignature_continued`): a body with broken literals,
open comments or characters that are no token, other declarations, or nothing.

The reader takes the tokens of a signature and looks at no other (`isSignature_takenTokens`), so it
is enough that these tokens come out again.  None of them is unexpected, hence every lexeme up to
the end of the signature can be read; the last of them ends itself, and no spelling goes on with it,
so that scanning is settled there (`lexemes_of_close`).
-/
import MethodSkeleton.Proofs.Signature.Coverage
import MethodSkeleton.Proofs.Signature.Extent
import MethodSkeleton.Proofs.Source.Lookahead

namespace MethodSkeleton

/-! ## What a signature takes -/

/-- A text that begins with a signature is read as far as that signature goes. -/
theorem takenTokens_of_isSignature {source : String} {o : Outline} {us : List Token}
    (h : IsSignature o us) (hp : us <+: (tokenize source).map (·.value)) :
    takenTokens (tokenize source) = (tokenize source).take us.length := by
  obtain ⟨vs, hvs⟩ := hp
  obtain ⟨rest, hs, _⟩ := exists_splitsAs_iff.mp hvs.symm
  suffices hread : ∃ m, readExtent (tokenize source) = .ok (m, rest) by
    obtain ⟨m, hread⟩ := hread
    obtain ⟨front, rfl, htokens⟩ := hs
    rw [takenTokens, hread, htokens]
    simp
  cases h with
  | @parenthesized header results hheader hresults =>
      rw [List.append_assoc] at hs
      obtain ⟨mid, h₁, h₂⟩ := splitsAs_append_iff.mp hs
      have hparen : ∃ m, readParenthesizedExtent (tokenize source) = .ok (m, rest) := by
        simp only [readParenthesizedExtent, bind_ok_iff, Prod.exists, pure, Except.pure,
          Except.ok.injEq, Prod.mk.injEq, readHeader_ok_iff, readResultList_ok_iff]
        exact ⟨_, _, mid, ⟨o, header, rfl, hheader, h₁⟩, _, rest,
          ⟨o.results, results, hresults, rfl, h₂⟩, rfl, rfl⟩
      obtain ⟨m, hparen⟩ := hparen
      refine ⟨m, ?_⟩
      rw [readExtent]
      split
      · rename_i read hbare
        have hdisjoint := shapes_disjoint (tokenize source)
        rw [← readBareExtent_fst, ← readParenthesizedExtent_fst, hbare, hparen] at hdisjoint
        exact absurd ⟨⟨_, rfl⟩, ⟨_, rfl⟩⟩ hdisjoint
      · exact hparen
  | @bare header type e hheader htype he =>
      obtain ⟨receiver, name, slots, results⟩ := o
      rw [List.append_assoc] at hs
      obtain ⟨mid, h₁, h₂⟩ := splitsAs_append_iff.mp hs
      have htakes : SlotState.opening.Takes .resultType false [] type := by
        cases htype with
        | none => exact .inr ⟨rfl, rfl, rfl, by simp⟩
        | some htype => exact .inl (.inl htype)
      have hends : EndsSlot .resultType false type mid rest :=
        .inl ⟨e, terminator?_resultType_iff.mpr ⟨rfl, he⟩, h₂⟩
      have hslot : readSlot .resultType (endPosition (tokenize source)) .opening [] mid =
          .ok (⟨type, false⟩, rest) :=
        readSlot_ok_iff.mpr ⟨type, rfl, hends, htakes⟩
      have hbare : ∃ m, readBareExtent (tokenize source) = .ok (m, rest) := by
        simp only [readBareExtent, bind_ok_iff, Prod.exists, pure, Except.pure,
          Except.ok.injEq, Prod.mk.injEq, readHeader_ok_iff]
        exact ⟨_, _, mid, ⟨_, header, rfl, hheader, h₁⟩, _, rest, hslot, rfl, rfl⟩
      obtain ⟨m, hbare⟩ := hbare
      exact ⟨m, by rw [readExtent, hbare]⟩

theorem IsSignature.takenTokens_eq {source : String} {o : Outline} {us : List Token}
    (h : IsSignature o us) (hp : us <+: (tokenize source).map (·.value)) :
    (takenTokens (tokenize source)).map (·.value) = us := by
  rw [takenTokens_of_isSignature h hp, List.map_take]
  exact (List.prefix_iff_eq_take.mp hp).symm

/-! ## The lexemes up to a token -/

/-- The lexeme that a token is, and where it stands. -/
theorem exists_lexeme_at {position : Nat} {xs : List Lexeme} {before after : Tokens}
    {t : Located Token} (h : tokensOf (Lexeme.locate position xs) = before ++ t :: after) :
    ∃ ys x zs, xs = ys ++ x :: zs ∧ Token.ofLexeme? x = some t.value ∧
      ys.filterMap Token.ofLexeme? = before.map (·.value) ∧
      t.span = ⟨position + byteWidth (Lexeme.spell ys),
        position + byteWidth (Lexeme.spell (ys ++ [x]))⟩ := by
  induction xs generalizing position before with
  | nil => simp [Lexeme.locate, tokensOf] at h
  | cons x xs ih =>
      have hwidth : ∀ zs : List Lexeme, position + byteWidth x.text + byteWidth (Lexeme.spell zs) =
          position + byteWidth (Lexeme.spell (x :: zs)) := by
        intro zs
        rw [spell_cons, byteWidth_append, Nat.add_assoc]
      cases hx : Token.ofLexeme? x with
      | none =>
          rw [tokensOf_locate_of_none hx] at h
          obtain ⟨ys, y, zs, rfl, hy, hys, hspan⟩ := ih h
          rw [hwidth, hwidth] at hspan
          exact ⟨x :: ys, y, zs, rfl, hy, by rw [List.filterMap_cons_none hx, hys], hspan⟩
      | some u =>
          rw [tokensOf_locate_of_some hx] at h
          cases before with
          | nil =>
              cases h
              refine ⟨[], x, xs, rfl, hx, rfl, ?_⟩
              simp [Lexeme.spell, byteWidth]
          | cons b before =>
              obtain ⟨rfl, hrest⟩ := List.cons.inj h
              obtain ⟨ys, y, zs, rfl, hy, hys, hspan⟩ := ih hrest
              rw [hwidth, hwidth] at hspan
              refine ⟨x :: ys, y, zs, rfl, hy, ?_, hspan⟩
              rw [List.filterMap_cons_some hx, hys, List.map_cons]

theorem exists_lexeme_of_tokensOf {position : Nat} {xs : List Lexeme} {before after : Tokens}
    {t : Located Token} (h : tokensOf (Lexeme.locate position xs) = before ++ t :: after) :
    ∃ ys x zs, xs = ys ++ x :: zs ∧ Token.ofLexeme? x = some t.value ∧
      ys.filterMap Token.ofLexeme? = before.map (·.value) ∧
      t.span.stop = position + byteWidth (Lexeme.spell (ys ++ [x])) := by
  obtain ⟨ys, x, zs, hxs, hx, hys, hspan⟩ := exists_lexeme_at h
  exact ⟨ys, x, zs, hxs, hx, hys, by rw [hspan]⟩

/-- What cannot be read is an unexpected token. -/
theorem Lexeme.readable_of_expected {ys : List Lexeme}
    (h : ∀ text, .unexpected text ∉ ys.filterMap Token.ofLexeme?) : ∀ y ∈ ys, y.Readable := by
  rintro ⟨is, text⟩ hy why rfl
  exact h (String.ofList text) (List.mem_filterMap.mpr ⟨_, hy, rfl⟩)

/-! ## Closing characters -/

/-- The token that closes a signature is a single character; it stands before anything, and no
spelling goes on with it. -/
theorem closing_of_ofLexeme? {x : Lexeme} {t : Token} {rest : List Char} (hx : StandsBefore x rest)
    (h : Token.ofLexeme? x = some t) (ht : t = .leftBrace ∨ t = .rightParen) :
    ∃ d, x.text = [d] ∧ goesOn d = false ∧ ∀ v, StandsBefore x v := by
  obtain ⟨is, text⟩ := x
  obtain ⟨kind, rfl, hkind⟩ :
      ∃ kind, is = .token kind ∧ (kind = .leftBrace ∨ kind = .rightParen) := by
    cases is with
    | blank => cases h
    | fault why =>
        cases h
        simp at ht
    | token kind =>
        cases kind with
        | leftBrace => exact ⟨_, rfl, .inl rfl⟩
        | rightParen => exact ⟨_, rfl, .inr rfl⟩
        | newline | lineComment | blockComment => cases h
        | identifier =>
            have hmem := Token.ofWord_mem (String.ofList text)
            rw [Option.some.inj h] at hmem
            rcases ht with rfl | rfl <;> simp at hmem
        | _ =>
            cases h
            simp at ht
  have hspells := hx.spells
  have hends : kind.isFixed = true ∧ kind.endsItself = true ∧ kind ≠ .newline ∧
      kind ≠ .lineComment ∧ kind ∉ [Kind.identifier, .number, .operator] := by
    rcases hkind with rfl | rfl <;> decide
  obtain ⟨hfixed, hends, hnewline, hcomment, hword⟩ := hends
  have hall : ∀ e ∈ punctuation, e.2 = .leftBrace ∨ e.2 = .rightParen →
      e.1 = ['\x7b'] ∨ e.1 = [')'] := by decide
  obtain ⟨d, htext, hd⟩ : ∃ d, text = [d] ∧ goesOn d = false := by
    rcases hall _ (hspells.mem_punctuation hfixed) hkind with htext | htext
    · exact ⟨_, htext, by decide⟩
    · exact ⟨_, htext, by decide⟩
  refine ⟨d, htext, hd, fun v => ?_⟩
  have hshielded : Shielded kind v := ⟨fun h => absurd h hcomment, fun h => absurd h hword⟩
  exact (hspells.standsBefore_iff hnewline hshielded).mpr (not_fuses_of_endsItself hspells hends)

/-! ## Another text behind -/

/-- **What follows a signature does not matter.**  If a text declares a method, and the last token
that its signature takes is an opening brace or a closing parenthesis, then the text up to the end
of that token declares the same method with anything written behind it. -/
theorem parseSignature_continued {source : String} {m : Method} {t : Located Token}
    (h : parseSignature source = .ok m)
    (hlast : (takenTokens (tokenize source)).getLast? = some t)
    (ht : t.value = .leftBrace ∨ t.value = .rightParen) :
    ∃ front after, IsSlice source.toList ⟨0, t.span.stop⟩ front after ∧
      ∀ s : String, parseSignature (String.ofList front ++ s) = .ok m := by
  obtain ⟨o, rfl, hsignature⟩ := isSignature_takenTokens h
  obtain ⟨before, htaken⟩ := List.getLast?_eq_some_iff.mp hlast
  have hprefix := takenTokens_isPrefix (tokenize source)
  rw [htaken] at hprefix hsignature
  -- the last token is not the end of input, so it is among those that lexemes are
  obtain ⟨behind, htokens⟩ :
      before ++ [t] <+: tokensOf (Lexeme.locate 0 (lexemes source.toList)) := by
    rcases List.prefix_concat_iff.mp hprefix with heq | hprefix
    · have hend := congrArg List.getLast? heq
      rw [List.getLast?_concat, List.getLast?_concat, Option.some.injEq] at hend
      rw [hend] at ht
      rcases ht with ht | ht <;> cases ht
    · exact hprefix
  rw [List.append_assoc] at htokens
  obtain ⟨ys, x, zs, hxs, hx, hys, hstop⟩ := exists_lexeme_of_tokensOf htokens.symm
  have hread : ∀ y ∈ ys, y.Readable := by
    refine Lexeme.readable_of_expected fun text hmem => hsignature.typesGoOn.expected text ?_
    rw [hys] at hmem
    simp [hmem]
  have hsource : source.toList = Lexeme.spell (ys ++ [x]) ++ Lexeme.spell zs := by
    rw [← spell_append, List.append_assoc, List.singleton_append, ← hxs, spell_lexemes]
  obtain ⟨rest, hstand⟩ := (readsBack_lexemes source.toList).standsBefore x (by simp [hxs])
  obtain ⟨d, htext, hd, hany⟩ := closing_of_ofLexeme? hstand hx ht
  refine ⟨Lexeme.spell (ys ++ [x]), Lexeme.spell zs, ⟨[], hsource, ?_⟩, fun s => ?_⟩
  · rw [hstop, Nat.zero_add]
    rfl
  · rw [hsource] at hxs
    have hlexemes := lexemes_of_close hxs hread htext hd hany s.toList
    refine parseSignature_of_isSignature hsignature ?_
    rw [tokenize_values, String.toList_append, String.toList_ofList, hlexemes,
      List.filterMap_append, List.filterMap_cons_some hx, hys, List.map_append, List.append_assoc]
    exact List.prefix_append_right_inj _ |>.mpr (List.prefix_append [t.value] _)

/-- A signature and the beginning of a body, with a string that is not closed. -/
def openGet : String := "func (d *db) Get(x int) error \x7b\n\treturn \"no"

theorem parseSignature_continued_openGet :
    let m : Method := ⟨"db", "Get", [⟨"x", "int"⟩], ["error"]⟩
    let brace : Located Token := ⟨⟨30, 31⟩, .leftBrace⟩
    parseSignature openGet = .ok m ∧
      (takenTokens (tokenize openGet)).getLast? = some brace ∧
      ∃ front after, IsSlice openGet.toList ⟨0, 31⟩ front after ∧
        ∀ s : String, parseSignature (String.ofList front ++ s) = .ok m := by
  intro m brace
  let o : Outline := ⟨"db", "Get", [[.identifier "x", .identifier "int"]], [[.identifier "error"]]⟩
  let us : List Token := [.func, .leftParen, .identifier "d", .star, .identifier "db", .rightParen,
    .identifier "Get", .leftParen, .identifier "x", .identifier "int", .rightParen,
    .identifier "error", .leftBrace]
  have hslots : CommaList IsParameterSlot o.slots [.identifier "x", .identifier "int"] :=
    .last (.typed "x" (.name "int"))
  have hsignature : IsSignature o us :=
    .bare (.mk "d" (.inr rfl) hslots) (.some (.name "error")) (.inl rfl)
  have hprefix : us <+: (tokenize openGet).map (·.value) := by
    rw [tokenize_values]
    exact ⟨[.unexpected "return", .unexpected "\"no", .endOfInput], rfl⟩
  have hparse := parseSignature_of_isSignature hsignature hprefix
  have hlast : (takenTokens (tokenize openGet)).getLast? = some brace := by
    rw [takenTokens_of_isSignature hsignature hprefix]
    rfl
  exact ⟨hparse, hlast, parseSignature_continued hparse hlast (.inl rfl)⟩

end MethodSkeleton
