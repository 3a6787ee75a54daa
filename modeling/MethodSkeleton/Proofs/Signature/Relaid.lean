/-
# `MethodSkeleton.Proofs.Signature.Relaid` — laying out a text keeps its signature

A text that declares a method declares the same method when it has been laid out
(`reformatBytes_keeps_signature`), unless the signature sets a dot in front of a spread mark: the
layout writes the two next to each other, and what they spell is read as a spread mark and a dot.

Behind the signature anything may happen to the tokens.  Up to its end none fuses with what is
written behind it on its row (`keepsApart_setRowsOf`).  Nearly all tokens of a signature fuse with
nothing.  The two that may are the star and the dot; behind them the grammar has something with
which a type begins (`TypesGoOn`), and only the spread mark spells something together with one.
-/
import Mathlib.Data.List.Chain
import MethodSkeleton.Proofs.Layout.Front
import MethodSkeleton.Proofs.Layout.Lines
import MethodSkeleton.Proofs.Signature.Extent
import MethodSkeleton.Proofs.Signature.Views
import MethodSkeleton.Proofs.Source.Fusing

namespace MethodSkeleton

/-! ## What may fuse -/

/-- No dot that the signature takes stands directly in front of a spread mark. -/
def NoDotBeforeSpread (source : String) : Prop :=
  ∀ ts, rawTokens source = .ok ts → ts.IsChain fun t u =>
    t.value.kind = .dot → u.value.kind = .ellipsis →
      ⟨t.span, .dot⟩ ∉ takenTokens (tokenize source)

/-- Behind a token of a row stands the next one, or a space. -/
theorem not_fuses_row {text : List Char} {after : List SetPiece} (ht : text ≠ [])
    (h : ∀ y ∈ after.head?, ∀ rest, ¬ Fuses text (y.piece.text ++ rest)) :
    ¬ Fuses text ((after.map SetPiece.word).flatMap Word.render) := by
  cases after with
  | nil => exact not_fuses_of_rest ht rfl
  | cons y ys =>
      rw [List.map_cons, List.flatMap_cons, SetPiece.render_word]
      split
      · exact not_fuses_of_rest ht (show goesOn ' ' = false by decide)
      · exact h y rfl _

/-- The tokens of a signature that may fuse are the star and the dot. -/
theorem RawToken.wantsType_of_classify? {t : RawToken} {u : Token} (h : t.classify? = some u)
    (hu : ∀ text, u ≠ .unexpected text) (ht : t.kind.endsItself = false) :
    (t.kind = .star ∨ t.kind = .dot) ∧ u.wantsType = true := by
  obtain ⟨kind, text⟩ := t
  cases kind with
  | star =>
      cases h
      exact ⟨.inl rfl, rfl⟩
  | dot =>
      cases h
      exact ⟨.inr rfl, rfl⟩
  | _ =>
      cases h <;> first | exact absurd rfl (hu _) | cases ht

/-- What a type begins with is a spread mark, or no spelling goes on with it. -/
theorem RawToken.beginsAfresh_of_classify? {t : RawToken} {u : Token} (h : t.classify? = some u)
    (hu : u.beginsType = true) : t.kind = .ellipsis ∨ t.kind.beginsAfresh = true := by
  obtain ⟨kind, text⟩ := t
  cases kind with
  | ellipsis => exact .inl rfl
  | identifier | leftBracket | rightBracket | star => exact .inr rfl
  | _ => cases h <;> cases hu

/-! ## Behind a token of the signature -/

/-- A token of a signature does not fuse with the next one, if it is no dot in front of a spread
mark; `hbegins` says that the next one begins a type where a type is wanted. -/
theorem not_fuses_next {t u : RawToken} {w : Token} (ht : Spells t.kind t.text)
    (hu : Spells u.kind u.text) (hvisible : u.kind ≠ .newline) (hw : t.classify? = some w)
    (hexpected : ∀ text, w ≠ .unexpected text)
    (hbegins : w.wantsType = true → ∀ v, u.classify? = some v → v.beginsType = true)
    (hdot : t.kind = .dot → u.kind ≠ .ellipsis) (rest : List Char) :
    ¬ Fuses t.text (u.text ++ rest) := by
  cases hends : t.kind.endsItself with
  | true => exact not_fuses_of_endsItself ht hends
  | false =>
      obtain ⟨hkind, hwants⟩ := RawToken.wantsType_of_classify? hw hexpected hends
      have hne : t.text ≠ [] := by
        obtain ⟨c, tail, htext, _⟩ := ht.head_eq (by rcases hkind with h | h <;> simp [h])
        simp [htext]
      cases hv : u.classify? with
      | none =>
          have hcomment := (RawToken.classify?_eq_none_iff.mp hv).resolve_left hvisible
          obtain ⟨tail, htail⟩ := hu.comment_head hcomment
          rw [htail]
          exact not_fuses_of_rest hne (show goesOn '/' = false by decide)
      | some v =>
          rcases RawToken.beginsAfresh_of_classify? hv (hbegins hwants v hv) with hspread | hafresh
          · have hstar := hkind.resolve_right fun h => hdot h hspread
            have hstars : ∀ e ∈ punctuation, e.2 = .star → e.1 = ['*'] := by decide
            have hspreads : ∀ e ∈ punctuation, e.2 = .ellipsis → e.1.head? = some '.' := by decide
            have htext : t.text = ['*'] := hstars _ (ht.mem_punctuation (by rw [hstar]; rfl)) hstar
            obtain ⟨tail, htail⟩ := List.head?_eq_some_iff.mp
              (hspreads _ (hu.mem_punctuation (by rw [hspread]; rfl)) hspread)
            rw [htext, show u.text = '.' :: tail from htail]
            exact not_fuses_star (by decide) _
          · obtain ⟨c, tail, htail, hgoes⟩ := head_beginsAfresh hu hafresh
            rw [htail]
            exact not_fuses_of_rest hne hgoes

section
variable {source : String} {m : Method} {ts : List (Located RawToken)}

/-- A token in front of the end of the signature does not fuse with the token behind it. -/
theorem not_fuses_of_signature (hts : rawTokens source = .ok ts)
    (h : parseSignature source = .ok m) (hdot : NoDotBeforeSpread source)
    {before after : List (Located RawToken)} {t u : Located RawToken}
    (heq : ts = before ++ t :: u :: after) (ht : t.value.kind ≠ .newline)
    (hu : u.value.kind ≠ .newline)
    (hlt : (before.filterMap RawToken.classifyAt?).length < (takenTokens (tokenize source)).length)
    (rest : List Char) : ¬ Fuses t.value.text (u.value.text ++ rest) := by
  have hspells := spells_of_rawTokens hts
  have htspells := hspells t (by simp [heq])
  have huspells := hspells u (by simp [heq])
  cases hw : t.value.classify? with
  | none =>
      have hcomment := (RawToken.classify?_eq_none_iff.mp hw).resolve_left ht
      refine not_fuses_of_endsItself htspells ?_
      revert hcomment
      cases t.value.kind <;> decide
  | some w =>
      obtain ⟨o, _, hsignature⟩ := isSignature_takenTokens h
      have hgoes := hsignature.typesGoOn
      have hprefix := takenTokens_isPrefix (tokenize source)
      obtain ⟨next, htaken, hnext⟩ := exists_next_of_prefix hts heq hw hprefix hlt
      rw [htaken, List.map_append, List.map_cons] at hgoes
      refine not_fuses_next htspells huspells hu hw ?_ ?_ ?_ rest
      · intro text hunexpected
        exact hgoes.expected text (by simp [hunexpected])
      · intro hwants v hv
        have hbegins := hgoes.behind w (next.map (·.value)) (List.suffix_append _ _) hwants
        rw [List.filterMap_cons_some (RawToken.classifyAt?_of_classify? hv)] at hnext
        cases next with
        | nil => cases hbegins
        | cons n next =>
            obtain ⟨rfl, _⟩ := List.cons_prefix_cons.mp hnext
            exact hbegins
      · intro hkind hspread
        have hwdot : w = .dot := by
          rw [RawToken.classify?, hkind] at hw
          exact (Option.some.inj hw).symm
        have hchain := hdot ts hts
        rw [heq, List.isChain_append_cons_cons] at hchain
        refine hchain.2.1 hkind hspread ?_
        simp [htaken, hwdot]

/-! ## Rows -/

theorem seen_eq {source : List Char} {xs : List SetPiece} {us : List (Located RawToken)}
    (h : xs.map (·.piece) = us.map (Piece.ofToken source)) :
    seen xs = (us.filterMap RawToken.classifyAt?).length := by
  have hseen : seen xs = ((xs.map (·.piece)).filterMap fun p => p.token.classify?).length := by
    rw [List.filterMap_map]
    rfl
  rw [hseen, h, List.filterMap_map, List.length_filterMap_eq_countP,
    List.length_filterMap_eq_countP]
  congr 1
  funext t
  rw [RawToken.classifyAt?, Option.isSome_map]
  rfl

/-- On the rows of a text that declares a method no token of its signature fuses with what is
behind it. -/
theorem keepsApart_setRowsOf (hts : rawTokens source = .ok ts)
    (h : parseSignature source = .ok m) (hdot : NoDotBeforeSpread source) :
    KeepsApart (takenTokens (tokenize source)).length (setRowsOf source) := by
  intro above r below hrows before x after hpieces hlt
  have hlaid : Laid r.pieces := (setRowsOf_laid source r (by simp [hrows])).1
  have htokens : ∀ y ∈ r.pieces, y.piece.IsToken := fun y hy =>
    hlaid.legible.forall_isToken y.piece (List.mem_map_of_mem hy)
  have hset := setSourceLines_forall₂ source.toList [] (sourceLines ts)
  rw [← setRowsOf_eq hts, hrows] at hset
  obtain ⟨ls₁, l, ls₂, hlines, habove, hl⟩ := SetFrom.exists_line hset
  obtain ⟨front, back, hfront, hvisible⟩ := exists_append_of_sourceLines hlines
  have hline := hl.pieces
  rw [hpieces, List.map_append, List.map_cons] at hline
  obtain ⟨left, right, hleft, hbefore, hright⟩ := List.map_eq_append_iff.mp hline.symm
  obtain ⟨t, right, rfl, hx, hafter⟩ := List.map_eq_cons_iff.mp hright
  -- so many tokens of the source stand in front of `t`
  have hcount : ((front ++ left).filterMap RawToken.classifyAt?).length <
      (takenTokens (tokenize source)).length := by
    rw [seen_eq (SetFrom.flatMap_pieces habove), ← hvisible, RawToken.classifyAt?_filter,
      seen_eq hbefore.symm] at hlt
    rw [List.filterMap_append, List.length_append]
    omega
  have hxtoken := htokens x (by simp [hpieces])
  refine not_fuses_row ?_ ?_
  · obtain ⟨c, tail, htext, _⟩ := hxtoken.spells.head_eq hxtoken.visible
    simp [htext]
  · intro y hy rest
    obtain ⟨ys, rfl⟩ := List.head?_eq_some_iff.mp hy
    obtain ⟨u, right, rfl, hu, _⟩ := List.map_eq_cons_iff.mp hafter
    have hytoken := htokens y (by simp [hpieces])
    have hu : Piece.ofToken source.toList u = y.piece := hu
    rw [← hx] at hxtoken ⊢
    rw [← hu] at hytoken ⊢
    have hadjacent : ts = (front ++ left) ++ t :: u :: (right ++ back) := by
      rw [hfront, hleft]
      simp
    exact not_fuses_of_signature hts h hdot hadjacent hxtoken.visible hytoken.visible hcount rest

end

/-! ## Whole sources -/

theorem take_append_singleton {α : Type} {us vs : List α} {n : Nat} (h : us.take n = vs.take n)
    (a : α) : (us ++ [a]).take n = (vs ++ [a]).take n := by
  rw [List.take_append, List.take_append, h]
  by_cases hlt : us.length < n
  · rw [List.take_of_length_le (Nat.le_of_lt hlt)] at h
    have hlength := congrArg List.length h
    rw [List.length_take] at hlength
    rw [show us.length = vs.length by omega]
  · have hlength := congrArg List.length h
    rw [List.length_take, List.length_take] at hlength
    rw [Nat.sub_eq_zero_of_le (Nat.not_lt.mp hlt), Nat.sub_eq_zero_of_le (by omega)]

/-- The page has the tokens of its source, as the grammar sees them. -/
theorem filterMap_ofLexeme?_pageOf {source : String} {ts : List (Located RawToken)}
    (hts : rawTokens source = .ok ts) : (pageOf source).filterMap Token.ofLexeme? =
      (lexemes source.toList).filterMap Token.ofLexeme? := by
  obtain ⟨hread, _⟩ := rawTokens_visible_iff.mp ⟨ts, hts, rfl⟩
  rw [filterMap_ofLexeme?_eq hread, ← visible_pageOf, ← filterMap_ofLexeme?_eq]
  exact (typeset_pageLexemes (setRowsOf_laid source)).readable

/-- **Laying out a text keeps its signature.**  If a text declares a method, no dot of its
signature stands directly in front of a spread mark, and the text is laid out, then what was
written declares the same method, whatever stands behind the signature. -/
theorem reformatBytes_keeps_signature {source out : String} {m : Method}
    (h : parseSignature source = .ok m) (hout : reformatBytes source.toUTF8 = .ok out)
    (hdot : NoDotBeforeSpread source) : parseSignature out = .ok m := by
  rw [reformatBytes_toUTF8] at hout
  obtain ⟨ts, hts⟩ := rawTokens_of_reformat hout
  have hstands : StandsUpTo (takenTokens (tokenize source)).length (pageOf source) :=
    standsUpTo_pageLexemes (setRowsOf_laid source) (keepsApart_setRowsOf hts h hdot)
  have hpage := hstands.take_eq
  rw [← toList_of_reformat hout, filterMap_ofLexeme?_pageOf hts] at hpage
  obtain ⟨o, rfl, hsignature⟩ := isSignature_takenTokens h
  refine parseSignature_of_isSignature hsignature ?_
  have htaken := (takenTokens_isPrefix (tokenize source)).map (·.value)
  rw [List.prefix_iff_eq_take, tokenize_values, List.length_map] at htaken
  rw [htaken, ← take_append_singleton hpage, ← tokenize_values]
  exact List.take_prefix _ _

/-- What becomes of a dot in front of a spread mark: this is read as a spread mark and a dot. -/
example : reformatBytes "f(a. ...b)".toUTF8 = .ok "f(a....b)" := by
  rw [reformatBytes_toUTF8]
  decide

/-- A signature over two lines with a comment in it, and a body in which two signs fuse. -/
def looseGet : String :=
  "func (d*db) Get(x *a . D, // who\n ys ...b.T)( error )\x7b return - -x \x7d"

theorem parseSignature_looseGet : parseSignature looseGet =
    .ok ⟨"db", "Get", [⟨"x", "*a.D"⟩, ⟨"ys", "...b.T"⟩], ["error"]⟩ := by
  have htokens : (tokenize looseGet).map (·.value) =
      [.func, .leftParen, .identifier "d", .star, .identifier "db", .rightParen, .identifier "Get",
        .leftParen, .identifier "x", .star, .identifier "a", .dot, .identifier "D", .comma,
        .identifier "ys", .ellipsis, .identifier "b", .dot, .identifier "T", .rightParen,
        .leftParen, .identifier "error", .rightParen, .leftBrace, .unexpected "return",
        .unexpected "-", .unexpected "-", .identifier "x", .unexpected "\x7d", .endOfInput] := by
    rw [tokenize_values]
    rfl
  let o : Outline := ⟨"db", "Get", [[.identifier "x", .star, .identifier "a", .dot,
    .identifier "D"], [.identifier "ys", .ellipsis, .identifier "b", .dot, .identifier "T"]],
    [[.identifier "error"]]⟩
  have hslots : CommaList IsParameterSlot o.slots _ :=
    .cons (.typed "x" (.marked .star (.dotted "a" (.name "D"))))
      (.last (.typed "ys" (.marked (.ellipsis rfl) (.dotted "b" (.name "T")))))
  have hsignature : IsSignature o _ :=
    .parenthesized (.mk "d" (.inr rfl) hslots) (.last (.name "error"))
  refine parseSignature_of_isSignature hsignature ?_
  rw [htokens]
  exact ⟨_, rfl⟩

theorem noDotBeforeSpread_looseGet : NoDotBeforeSpread looseGet := by
  obtain ⟨us, hus, hchain⟩ : ∃ us, rawTokens looseGet = .ok us ∧ us.IsChain fun t u =>
      t.value.kind = .dot → u.value.kind ≠ .ellipsis := ⟨_, rfl, by decide⟩
  intro ts hts
  rw [hus] at hts
  cases hts
  exact hchain.imp fun t u h ht hu => absurd hu (h ht)

theorem reformatBytes_keeps_signature_looseGet :
    let m : Method := ⟨"db", "Get", [⟨"x", "*a.D"⟩, ⟨"ys", "...b.T"⟩], ["error"]⟩
    let out := "func (d * db) Get(x *a.D, // who\n\tys ...b.T)(error) \x7b return --x \x7d\n"
    parseSignature looseGet = .ok m ∧ NoDotBeforeSpread looseGet ∧
      reformatBytes looseGet.toUTF8 = .ok out ∧ parseSignature out = .ok m := by
  intro m out
  have hout : reformatBytes looseGet.toUTF8 = .ok out := by
    rw [reformatBytes_toUTF8]
    decide
  exact ⟨parseSignature_looseGet, noDotBeforeSpread_looseGet, hout,
    reformatBytes_keeps_signature parseSignature_looseGet hout noDotBeforeSpread_looseGet⟩

end MethodSkeleton
