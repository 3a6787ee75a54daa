/-
# `MethodSkeleton.Proofs.Signature.Views` — the two views of a source

A signature is read from the tokens of `tokenize`, the layout works on those of `rawTokens`.  Where
a source can be read as a whole, the first are the second without their line breaks and comments,
each as the grammar sees it and in its place (`tokenize_eq_of_rawTokens`).  Where it cannot, the two
agree up to the first fault, which the layout reports and a signature has as an unexpected token
(`tokenize_views`).

What the grammar sees in a token is said once more here, as a relation (`RawToken.SeenAs`), so that
the statement does not lean on the function that makes the tokens.
-/
import MethodSkeleton.Proofs.Signature.Coverage
import MethodSkeleton.Proofs.Signature.SinglePass
import MethodSkeleton.Proofs.Source.Lookahead

namespace MethodSkeleton

/-- What a token is to the grammar; line breaks and comments are nothing. -/
def RawToken.classify? (t : RawToken) : Option Token := Token.ofLexeme? ⟨.token t.kind, t.text⟩

/-- What a token is to the grammar, in its place. -/
def RawToken.classifyAt? (t : Located RawToken) : Option (Located Token) :=
  t.value.classify?.map (⟨t.span, ·⟩)

/-- Only line breaks and comments are nothing to the grammar. -/
theorem RawToken.classify?_eq_none_iff {t : RawToken} :
    t.classify? = none ↔ t.kind = .newline ∨ t.kind.isComment = true := by
  obtain ⟨kind, text⟩ := t
  cases kind <;> simp [classify?, Token.ofLexeme?, Kind.isComment]

theorem tokensOf_eq_filterMap {position : Nat} {xs : List Lexeme} {ts : List (Located RawToken)}
    (h : rawTokensOf (Lexeme.locate position xs) = .ok ts) :
    tokensOf (Lexeme.locate position xs) = ts.filterMap RawToken.classifyAt? := by
  induction xs generalizing position ts with
  | nil =>
      cases h
      rfl
  | cons x xs ih =>
      obtain ⟨is, text⟩ := x
      rw [Lexeme.locate, rawTokensOf] at h
      cases is with
      | blank => exact ih h
      | fault why => cases h
      | token kind =>
          obtain ⟨us, hus, rfl⟩ := map_ok_iff.mp h
          have hrest := ih hus
          rw [tokensOf] at hrest ⊢
          rw [Lexeme.locate, List.filterMap_cons, hrest, List.filterMap_cons]
          rfl

/-- Where a source can be read, its tokens are those of a signature and what that leaves out. -/
theorem tokenize_eq_of_rawTokens {source : String} {ts : List (Located RawToken)}
    (h : rawTokens source = .ok ts) :
    tokenize source = ts.filterMap RawToken.classifyAt? ++ [endAt (byteWidth source.toList)] := by
  rw [tokenize, tokensOf_eq_filterMap h]

theorem RawToken.classifyAt?_of_classify? {t : Located RawToken} {u : Token}
    (h : t.value.classify? = some u) : classifyAt? t = some ⟨t.span, u⟩ := by
  rw [classifyAt?, h]
  rfl

/-- The grammar sees no line breaks. -/
theorem RawToken.classifyAt?_filter (us : List (Located RawToken)) :
    (us.filter (·.value.kind != .newline)).filterMap RawToken.classifyAt? =
      us.filterMap RawToken.classifyAt? := by
  rw [List.filterMap_filter]
  refine List.filterMap_congr fun t _ => ?_
  split
  · rfl
  · rename_i hk
    have hnone : t.value.classify? = none :=
      RawToken.classify?_eq_none_iff.mpr (.inl (by simpa using hk))
    rw [RawToken.classifyAt?, hnone]
    rfl

/-- A front of the tokens that reaches past those `before` a token has that token in it, and goes
on with the tokens behind it. -/
theorem exists_next_of_prefix {source : String} {ts before after : List (Located RawToken)}
    {t : Located RawToken} {u : Token} {front : Tokens} (hts : rawTokens source = .ok ts)
    (heq : ts = before ++ t :: after) (hu : t.value.classify? = some u)
    (h : front <+: tokenize source)
    (hlt : (before.filterMap RawToken.classifyAt?).length < front.length) :
    ∃ next, front = before.filterMap RawToken.classifyAt? ++ ⟨t.span, u⟩ :: next ∧
      next <+: after.filterMap RawToken.classifyAt? ++ [endAt (byteWidth source.toList)] := by
  rw [tokenize_eq_of_rawTokens hts, heq, List.filterMap_append, List.append_assoc,
    List.filterMap_cons_some (RawToken.classifyAt?_of_classify? hu)] at h
  obtain ⟨behind, rfl⟩ := List.prefix_of_prefix_length_le (List.prefix_append _ _) h
    (Nat.le_of_lt hlt)
  have hbehind := (List.prefix_append_right_inj _).mp h
  rcases List.prefix_cons_iff.mp hbehind with rfl | ⟨next, rfl, hnext⟩
  · simp at hlt
  · exact ⟨next, rfl, hnext⟩

/-- Among lexemes that can be read, the grammar sees nothing but visible tokens. -/
theorem filterMap_ofLexeme?_eq {xs : List Lexeme} (h : ∀ x ∈ xs, x.Readable) :
    xs.filterMap Token.ofLexeme? = (xs.filterMap Lexeme.visible?).filterMap RawToken.classify? := by
  rw [List.filterMap_filterMap]
  refine List.filterMap_congr fun x hx => ?_
  obtain ⟨is, text⟩ := x
  cases is with
  | blank => rfl
  | fault why => exact absurd rfl (h _ hx why)
  | token kind =>
      by_cases hk : kind = .newline
      · subst hk
        rfl
      · rw [Lexeme.visible?_token hk]
        rfl

/-! ## What the grammar sees -/

/-- The kinds that have a token of their own. -/
def Kind.ownToken? : Kind → Option Token
  | .leftParen => some .leftParen
  | .rightParen => some .rightParen
  | .leftBracket => some .leftBracket
  | .rightBracket => some .rightBracket
  | .star => some .star
  | .dot => some .dot
  | .comma => some .comma
  | .ellipsis => some .ellipsis
  | .leftBrace => some .leftBrace
  | _ => none

/-- What a token is seen as: the word `func` as itself, another keyword as unexpected and any other
word as a name; a token of a kind with a token of its own as that; and every other, literals and
operators, as unexpected. -/
inductive RawToken.SeenAs : RawToken → Token → Prop
  | func : SeenAs ⟨.identifier, "func".toList⟩ .func
  | keyword {word : String} : word ∈ keywords → word ≠ "func" →
      SeenAs ⟨.identifier, word.toList⟩ (.unexpected word)
  | name {word : String} : word ∉ keywords → SeenAs ⟨.identifier, word.toList⟩ (.identifier word)
  | own {kind : Kind} {text : List Char} {t : Token} : kind.ownToken? = some t →
      SeenAs ⟨kind, text⟩ t
  | other {kind : Kind} {text : List Char} : kind ≠ .identifier → kind.isTrivia = false →
      kind.ownToken? = none → SeenAs ⟨kind, text⟩ (.unexpected (String.ofList text))

/-- The tokens `us` are those of `rs` without line breaks and comments, in order, each in its place
and as what it is seen as. -/
def SeenAsTokens (rs : List (Located RawToken)) (us : Tokens) : Prop :=
  List.Forall₂ (fun r u => u.span = r.span ∧ r.value.SeenAs u.value)
    (rs.filter fun r => !r.value.kind.isTrivia) us

theorem RawToken.seenAs_ofWord (text : List Char) :
    SeenAs ⟨.identifier, text⟩ (Token.ofWord (String.ofList text)) := by
  obtain ⟨word, rfl⟩ : ∃ word : String, text = word.toList :=
    ⟨String.ofList text, String.toList_ofList.symm⟩
  rw [String.ofList_toList, Token.ofWord]
  split
  · rename_i h
    rw [h]
    exact .func
  · rename_i h
    split
    · rename_i hk
      exact .keyword (List.contains_iff_mem.mp hk) h
    · rename_i hk
      exact .name fun hmem => hk (List.contains_iff_mem.mpr hmem)

theorem RawToken.seenAs_of_classify? {t : RawToken} {u : Token} (h : t.classify? = some u) :
    t.SeenAs u := by
  obtain ⟨kind, text⟩ := t
  cases kind with
  | newline | lineComment | blockComment => cases h
  | identifier =>
      cases h
      exact seenAs_ofWord text
  | leftParen | rightParen | leftBracket | rightBracket | star | dot | comma | ellipsis
  | leftBrace =>
      cases h
      exact .own rfl
  | _ =>
      cases h
      exact .other (by simp) rfl rfl

theorem seenAsTokens_filterMap (rs : List (Located RawToken)) :
    SeenAsTokens rs (rs.filterMap RawToken.classifyAt?) := by
  induction rs with
  | nil => exact .nil
  | cons r rs ih =>
      have htrivia : r.value.classify? = none ↔ r.value.kind.isTrivia = true :=
        RawToken.classify?_eq_none_iff.trans Kind.isTrivia_iff.symm
      rw [SeenAsTokens, List.filter_cons]
      cases hr : r.value.classify? with
      | none =>
          rw [List.filterMap_cons_none (by rw [RawToken.classifyAt?, hr]; rfl), htrivia.mp hr]
          exact ih
      | some u =>
          have hkept : r.value.kind.isTrivia = false := by
            rw [← Bool.not_eq_true, ← htrivia, hr]
            simp
          rw [List.filterMap_cons_some (RawToken.classifyAt?_of_classify? hr), hkept]
          exact .cons ⟨rfl, RawToken.seenAs_of_classify? hr⟩ ih

/-! ## Up to the first fault -/

/-- The fault that is reported is the first, in its place. -/
theorem exists_of_rawTokensOf_error {position : Nat} {xs : List Lexeme} {fault : Located ScanFault}
    (h : rawTokensOf (Lexeme.locate position xs) = .error fault) :
    ∃ ys bad zs, xs = ys ++ ⟨.fault fault.value, bad⟩ :: zs ∧ (∀ y ∈ ys, y.Readable) ∧
      fault.span = ⟨position + byteWidth (Lexeme.spell ys),
        position + byteWidth (Lexeme.spell ys) + byteWidth bad⟩ := by
  induction xs generalizing position with
  | nil => cases h
  | cons x xs ih =>
      obtain ⟨is, text⟩ := x
      have hbehind : rawTokensOf (Lexeme.locate (position + byteWidth text) xs) = .error fault →
          (∀ why, is ≠ .fault why) →
          ∃ ys bad zs, ⟨is, text⟩ :: xs = ys ++ ⟨.fault fault.value, bad⟩ :: zs ∧
            (∀ y ∈ ys, y.Readable) ∧ fault.span = ⟨position + byteWidth (Lexeme.spell ys),
              position + byteWidth (Lexeme.spell ys) + byteWidth bad⟩ := by
        intro hr hread
        obtain ⟨ys, bad, zs, rfl, hys, hspan⟩ := ih hr
        refine ⟨⟨is, text⟩ :: ys, bad, zs, rfl, List.forall_mem_cons.mpr ⟨hread, hys⟩, ?_⟩
        rw [hspan, spell_cons, byteWidth_append, Nat.add_assoc position]
      rw [Lexeme.locate, rawTokensOf] at h
      cases is with
      | blank => exact hbehind h (by simp)
      | token kind =>
          cases hr : rawTokensOf (Lexeme.locate (position + byteWidth text) xs) with
          | ok rs =>
              rw [hr] at h
              cases h
          | error e =>
              rw [hr] at h
              cases h
              exact hbehind hr (by simp)
      | fault why =>
          cases h
          exact ⟨[], text, xs, rfl, by simp, rfl⟩

theorem tokensOf_append (xs ys : List (Located Lexeme)) :
    tokensOf (xs ++ ys) = tokensOf xs ++ tokensOf ys :=
  List.filterMap_append

/-- **The two views agree.**  Where a text can be read as a whole, its tokens are those of the
layout without line breaks and comments, each in its place and as what it is seen as, and then the
end of input.  Where it cannot, the fault that the layout reports is the first stretch in it that is
no token: the text in front of it, `before`, can be read, and cutting the whole text into lexemes
gives those of `before`, the fault, and what is behind.  The tokens of the text are then what the
tokens of `before` are seen as, and behind them comes the faulty stretch, as unexpected, in its
place. -/
theorem tokenize_views (source : String) :
    match rawTokens source with
    | .ok rs => ∃ us, tokenize source = us ++ [endAt (byteWidth source.toList)] ∧
        SeenAsTokens rs us
    | .error fault => ∃ before bad after rs us rest,
        source.toList = before ++ bad ++ after ∧
        fault.span = ⟨byteWidth before, byteWidth (before ++ bad)⟩ ∧
        lexemes source.toList = lexemes before ++ ⟨.fault fault.value, bad⟩ :: lexemes after ∧
        rawTokens (String.ofList before) = .ok rs ∧ SeenAsTokens rs us ∧
        tokenize source = us ++ ⟨fault.span, .unexpected (String.ofList bad)⟩ :: rest := by
  split
  · rename_i rs hrs
    exact ⟨_, tokenize_eq_of_rawTokens hrs, seenAsTokens_filterMap rs⟩
  · rename_i fault hfault
    obtain ⟨ys, bad, zs, hxs, hread, hspan⟩ := exists_of_rawTokensOf_error hfault
    rw [Nat.zero_add, ← byteWidth_append] at hspan
    have hsource : source.toList = Lexeme.spell ys ++ (bad ++ Lexeme.spell zs) := by
      rw [← spell_lexemes source.toList, hxs, spell_append, spell_cons]
    have hbefore : lexemes (Lexeme.spell ys) = ys := by
      rw [hsource] at hxs
      exact lexemes_of_cut hxs hread
    have hafter : lexemes (Lexeme.spell zs) = zs := by
      have hback := readsBack_lexemes source.toList
      rw [hxs] at hback
      exact (readsBack_cons_iff.mp hback.of_append).2
    obtain ⟨rs, hrs, _⟩ := (@rawTokensOf_ok_iff 0 ys _).mpr ⟨hread, rfl⟩
    have hfaulty : Token.ofLexeme? ⟨.fault fault.value, bad⟩ =
        some (.unexpected (String.ofList bad)) := rfl
    have htokens : tokenize source = rs.filterMap RawToken.classifyAt? ++
        ⟨fault.span, .unexpected (String.ofList bad)⟩ ::
          (tokensOf (Lexeme.locate (byteWidth (Lexeme.spell ys ++ bad)) zs) ++
            [endAt (byteWidth source.toList)]) := by
      rw [tokenize, hxs, locate_append, tokensOf_append, tokensOf_locate_of_some hfaulty,
        tokensOf_eq_filterMap hrs, hspan, Nat.zero_add, ← byteWidth_append, List.append_assoc]
      rfl
    refine ⟨Lexeme.spell ys, bad, Lexeme.spell zs, rs, _, _, ?_, hspan, ?_, ?_,
      seenAsTokens_filterMap rs, htokens⟩
    · rw [hsource, List.append_assoc]
    · rw [hbefore, hafter, hxs]
    · rw [rawTokens, String.toList_ofList, hbefore, hrs]

end MethodSkeleton
