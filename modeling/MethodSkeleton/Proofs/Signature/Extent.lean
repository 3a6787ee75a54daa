/-
# `MethodSkeleton.Proofs.Signature.Extent` — how far a signature reaches

Reading a signature stops where its shape is complete, and what follows is never looked at.  The
readers of the grammar drop what follows; here each of them is said again so that it answers that
too (`readBareExtent`, `readParenthesizedExtent`), which makes no difference to what is read
(`parseSignature_eq`).  The tokens in front of what follows are those that the signature takes
(`takenTokens`).

They are a whole signature with the token that ends it (`isSignature_takenTokens`), and a text
whose tokens begin with a whole signature declares its method (`parseSignature_of_isSignature`).
In a signature a star and a dot always have something behind them with which a type goes on
(`TypesGoOn`): no type ends in one.
-/
import MethodSkeleton.Proofs.Signature.SinglePass

namespace MethodSkeleton

/-! ## What follows -/

/-- A signature with one bare result type, or none, and what follows it. -/
def readBareExtent (ts : Tokens) : Except ParseError (Method × Tokens) := do
  let stop := endPosition ts
  let (method, ts) ← readHeader stop ts
  let (slot, rest) ← readSlot .resultType stop .opening [] ts
  return ({ method with results := slot.result?.toList }, rest)

/-- A signature whose results stand in parentheses, and what follows it. -/
def readParenthesizedExtent (ts : Tokens) : Except ParseError (Method × Tokens) := do
  let stop := endPosition ts
  let (method, ts) ← readHeader stop ts
  let (results, rest) ← readResultList stop ts
  return ({ method with results := results }, rest)

/-- The signature that tokens begin with, in the shape that is tried first of those that fit, and
what follows it. -/
def readExtent (ts : Tokens) : Except ParseError (Method × Tokens) :=
  match readBareExtent ts with
  | .ok read => .ok read
  | .error _ => readParenthesizedExtent ts

/-- The tokens that a signature takes, with the one that ends it. -/
def takenTokens (ts : Tokens) : Tokens :=
  match readExtent ts with
  | .ok (_, rest) => ts.take (ts.length - rest.length)
  | .error _ => []

theorem readBareExtent_fst (ts : Tokens) :
    (readBareExtent ts).map Prod.fst = readBareResult ts := by
  rw [readBareExtent, readBareResult]
  cases readHeader (endPosition ts) ts with
  | error e => rfl
  | ok read =>
      simp only [bind, Except.bind]
      cases readSlot .resultType (endPosition ts) .opening [] read.2 <;> rfl

theorem readParenthesizedExtent_fst (ts : Tokens) :
    (readParenthesizedExtent ts).map Prod.fst = readParenthesizedResults ts := by
  rw [readParenthesizedExtent, readParenthesizedResults]
  cases readHeader (endPosition ts) ts with
  | error e => rfl
  | ok read =>
      simp only [bind, Except.bind]
      cases readResultList (endPosition ts) read.2 <;> rfl

/-- What follows makes no difference to what is read. -/
theorem parseSignature_eq (source : String) :
    parseSignature source = (readExtent (tokenize source)).map Prod.fst := by
  rw [parseSignature, readExtent, ← readBareExtent_fst, ← readParenthesizedExtent_fst]
  cases readBareExtent (tokenize source) <;> rfl

/-! ## Types go on -/

/-- The tokens that no type ends in. -/
def Token.wantsType : Token → Bool
  | star | dot => true
  | _ => false

/-- The tokens that a type begins with. -/
def Token.beginsType : Token → Bool
  | identifier _ | star | leftBracket | rightBracket | ellipsis => true
  | _ => false

/-- Tokens that the grammar knows, where a type begins behind every star and every dot. -/
structure TypesGoOn (ts : List Token) : Prop where
  expected : ∀ text, .unexpected text ∉ ts
  behind : ∀ t after, t :: after <:+ ts → t.wantsType = true →
    after.head?.any Token.beginsType = true

theorem typesGoOn_nil : TypesGoOn [] where
  expected := by simp
  behind := by
    intro t after h
    cases List.suffix_nil.mp h

theorem typesGoOn_cons_iff {t : Token} {ts : List Token} : TypesGoOn (t :: ts) ↔
    (∀ text, t ≠ .unexpected text) ∧
      (t.wantsType = true → ts.head?.any Token.beginsType = true) ∧ TypesGoOn ts := by
  constructor
  · rintro ⟨hexpected, hbehind⟩
    refine ⟨fun text ht => hexpected text (by simp [ht]), hbehind t ts List.suffix_rfl, ?_⟩
    exact ⟨fun text ht => hexpected text (List.mem_cons_of_mem t ht),
      fun u after hu => hbehind u after (hu.trans (List.suffix_cons t ts))⟩
  · rintro ⟨ht, hnext, hts⟩
    refine ⟨fun text hmem => ?_, fun u after hu => ?_⟩
    · rcases List.mem_cons.mp hmem with hmem | hmem
      · exact ht text hmem.symm
      · exact hts.expected text hmem
    · rcases List.suffix_cons_iff.mp hu with hu | hu
      · cases hu
        exact hnext
      · exact hts.behind u after hu

theorem TypesGoOn.append {ts us : List Token} (h : TypesGoOn ts) (h' : TypesGoOn us) :
    TypesGoOn (ts ++ us) := by
  induction ts with
  | nil => exact h'
  | cons t ts ih =>
      obtain ⟨ht, hnext, hts⟩ := typesGoOn_cons_iff.mp h
      refine typesGoOn_cons_iff.mpr ⟨ht, fun hw => ?_, ih hts⟩
      have hbegins := hnext hw
      cases ts with
      | nil => cases hbegins
      | cons u ts => exact hbegins

theorem IsType.begins {context : SlotContext} {ts : List Token} (h : IsType context ts) :
    ts.head?.any Token.beginsType = true := by
  cases h with
  | name => rfl
  | marked hm _ => cases hm <;> rfl
  | dotted => rfl

theorem IsType.typesGoOn {context : SlotContext} {ts : List Token} (h : IsType context ts) :
    TypesGoOn ts := by
  induction h with
  | name x => simp [typesGoOn_cons_iff, typesGoOn_nil, Token.wantsType]
  | marked hm h ih => exact typesGoOn_cons_iff.mpr ⟨by cases hm <;> simp, fun _ => h.begins, ih⟩
  | dotted x h ih => simp [typesGoOn_cons_iff, Token.wantsType, h.begins, ih]

theorem IsParameterSlot.typesGoOn {ts : List Token} (h : IsParameterSlot ts) : TypesGoOn ts := by
  cases h with
  | bare x => simp [typesGoOn_cons_iff, typesGoOn_nil, Token.wantsType]
  | typed x h => simp [typesGoOn_cons_iff, Token.wantsType, h.typesGoOn]
  | qualified x h => simp [typesGoOn_cons_iff, Token.wantsType, h.begins, h.typesGoOn]

theorem CommaList.typesGoOn {Item : List Token → Prop} (hItem : ∀ ts, Item ts → TypesGoOn ts)
    {items : List (List Token)} {ts : List Token} (h : CommaList Item items ts) :
    TypesGoOn ts := by
  induction h with
  | nil => exact typesGoOn_nil
  | last h => exact hItem _ h
  | cons h _ ih =>
      refine (hItem _ h).append (typesGoOn_cons_iff.mpr ⟨by simp, ?_, ih⟩)
      exact fun hw => by cases hw

theorem IsHeader.typesGoOn {o : Outline} {ts : List Token} (h : IsHeader o ts) :
    TypesGoOn ts := by
  cases h with
  | mk x hstar hlist =>
      have hparams := hlist.typesGoOn fun _ => IsParameterSlot.typesGoOn
      have hclose : TypesGoOn [.rightParen] := by
        simp [typesGoOn_cons_iff, typesGoOn_nil, Token.wantsType]
      refine TypesGoOn.append ?_ hclose
      rcases hstar with rfl | rfl
      · simp [typesGoOn_cons_iff, Token.wantsType, hparams]
      · simp [typesGoOn_cons_iff, Token.wantsType, Token.beginsType, hparams]

theorem OptionalType.typesGoOn {context : SlotContext} {results : List (List Token)}
    {ts : List Token} (h : OptionalType context results ts) : TypesGoOn ts := by
  cases h with
  | none => exact typesGoOn_nil
  | some h => exact h.typesGoOn

/-! ## Whole signatures -/

/-- The tokens of a whole signature: a header and then `( RESULTS )`, or a header and then
`[TYPE]` and the opening brace or the end of input behind it. -/
inductive IsSignature (o : Outline) : List Token → Prop
  | parenthesized {header results : List Token} : IsHeader o header →
      CommaList (IsType .resultList) o.results results →
      IsSignature o (header ++ .leftParen :: results ++ [.rightParen])
  | bare {header type : List Token} {e : Token} : IsHeader o header →
      OptionalType .resultType o.results type → e = .leftBrace ∨ e = .endOfInput →
      IsSignature o (header ++ type ++ [e])

section
variable {o : Outline} {us : List Token} {ts rest : Tokens} {m : Method}

theorem IsSignature.typesGoOn (h : IsSignature o us) : TypesGoOn us := by
  cases h with
  | parenthesized hheader hresults =>
      have hresults := hresults.typesGoOn fun _ => IsType.typesGoOn
      refine (hheader.typesGoOn.append ?_).append ?_
      · simp [typesGoOn_cons_iff, Token.wantsType, hresults]
      · simp [typesGoOn_cons_iff, typesGoOn_nil, Token.wantsType]
  | bare hheader htype he =>
      refine (hheader.typesGoOn.append htype.typesGoOn).append ?_
      rcases he with rfl | rfl <;> simp [typesGoOn_cons_iff, typesGoOn_nil, Token.wantsType]

/-- A text whose tokens begin with a signature declares its method. -/
theorem parseSignature_of_isSignature {source : String} (h : IsSignature o us)
    (hp : us <+: (tokenize source).map (·.value)) : parseSignature source = .ok o.method := by
  obtain ⟨vs, hvs⟩ := hp
  cases h with
  | @parenthesized header results hheader hresults =>
      refine parseSignature_of_beginsParenthesized ⟨header, results, vs, hheader, hresults, ?_⟩
      rw [← hvs, List.append_assoc]
      rfl
  | @bare header type e hheader htype he =>
      refine parseSignature_of_beginsBare ⟨header, type, e :: vs, hheader, htype, ?_, ?_⟩
      · exact .inr (he.imp (fun h => ⟨vs, by rw [h]⟩) (fun h => ⟨vs, by rw [h]⟩))
      · rw [← hvs, List.append_assoc]
        rfl

/-! ## What is taken -/

/-- A type ends in a name. -/
theorem IsType.getLast?_eq {context : SlotContext} (h : IsType context us) :
    ∃ x, us.getLast? = some (.identifier x) := by
  induction h with
  | name x => exact ⟨x, rfl⟩
  | marked _ _ ih =>
      obtain ⟨x, hx⟩ := ih
      exact ⟨x, by simp [List.getLast?_cons, hx]⟩
  | dotted _ _ ih =>
      obtain ⟨x, hx⟩ := ih
      exact ⟨x, by simp [List.getLast?_cons, hx]⟩

/-- In front of the end of input, a header and a bare result are not all there is. -/
theorem IsHeader.getLast?_ne (h : IsHeader o us) {context : SlotContext} {type : List Token}
    (htype : IsType context type ∨ type = []) :
    (us ++ type).getLast? ≠ some .endOfInput := by
  rcases htype with htype | rfl
  · obtain ⟨x, hx⟩ := htype.getLast?_eq
    simp [hx]
  · cases h with
    | mk =>
        rw [List.append_nil, List.getLast?_concat]
        simp

theorem readBareExtent_ok (h : readBareExtent ts = .ok (m, rest))
    (hend : (ts.map (·.value)).getLast? = some .endOfInput) :
    ∃ o us, m = o.method ∧ IsSignature o us ∧ SplitsAs ts us rest := by
  simp only [readBareExtent, bind_ok_iff, Prod.exists, pure, Except.pure, Except.ok.injEq,
    Prod.mk.injEq, readHeader_ok_iff] at h
  obtain ⟨_, mid, ⟨o, header, rfl, hheader, h₁⟩, slot, _, hread, rfl, rfl⟩ := h
  obtain ⟨type, htok, hends, htakes⟩ := readSlot_ok_iff.mp hread
  rw [List.nil_append] at htok
  have htype : IsType .resultType type ∨ type = [] := by
    simpa [SlotState.Takes, SlotState.Completes] using htakes
  rcases hends with ⟨e, he, h₂⟩ | ⟨_, h₂, rfl⟩
  · have hs := splitsAs_append_iff.mpr ⟨mid, h₁, h₂⟩
    rw [← List.append_assoc] at hs
    have he := (terminator?_resultType_iff.mp he).2
    rcases htype with htype | rfl
    · refine ⟨{ o with results := [type] }, _, ?_,
        .bare (hheader.withResults _) (.some htype) he, hs⟩
      show { o.method with results := slot.result?.toList } = _
      obtain ⟨_, more⟩ := slot
      subst htok
      rw [htype.result?]
      rfl
    · refine ⟨{ o with results := [] }, _, ?_, .bare (hheader.withResults _) .none he, hs⟩
      simp [Slot.result?, htok, Outline.method]
  · have hall := exists_splitsAs_iff.mpr ⟨[], splitsAs_append_iff.mpr ⟨mid, h₁, h₂⟩, rfl⟩
    rw [hall, List.map_nil, List.append_nil] at hend
    exact absurd hend (hheader.getLast?_ne htype)

theorem readParenthesizedExtent_ok (h : readParenthesizedExtent ts = .ok (m, rest)) :
    ∃ o us, m = o.method ∧ IsSignature o us ∧ SplitsAs ts us rest := by
  simp only [readParenthesizedExtent, bind_ok_iff, Prod.exists, pure, Except.pure,
    Except.ok.injEq, Prod.mk.injEq, readHeader_ok_iff, readResultList_ok_iff] at h
  obtain ⟨_, mid, ⟨o, header, rfl, hheader, h₁⟩, _, _, ⟨items, us, hlist, rfl, h₂⟩, rfl, rfl⟩ := h
  refine ⟨{ o with results := items }, _, rfl, .parenthesized (hheader.withResults items) hlist, ?_⟩
  have hs := splitsAs_append_iff.mpr ⟨mid, h₁, h₂⟩
  rwa [List.append_assoc]

theorem takenTokens_of_splitsAs (h : readExtent ts = .ok (m, rest)) (hs : SplitsAs ts us rest) :
    (takenTokens ts).map (·.value) = us := by
  obtain ⟨front, rfl, rfl⟩ := hs
  simp [takenTokens, h]

theorem takenTokens_isPrefix (ts : Tokens) : takenTokens ts <+: ts := by
  rw [takenTokens]
  split
  · exact List.take_prefix _ _
  · exact List.nil_prefix

/-- **What a signature takes.**  A text that declares a method begins with a whole signature of
it, and that is what is taken. -/
theorem isSignature_takenTokens {source : String} (h : parseSignature source = .ok m) :
    ∃ o, m = o.method ∧ IsSignature o ((takenTokens (tokenize source)).map (·.value)) := by
  rw [parseSignature_eq, map_ok_iff] at h
  obtain ⟨⟨m', rest⟩, hread, hm⟩ := h
  obtain rfl : m' = m := hm
  have hend : ((tokenize source).map (·.value)).getLast? = some .endOfInput := by
    rw [tokenize_values, List.getLast?_concat]
  have hsplit : ∃ o us, m' = o.method ∧ IsSignature o us ∧ SplitsAs (tokenize source) us rest := by
    rw [readExtent] at hread
    split at hread
    · rename_i hbare
      cases hread
      exact readBareExtent_ok hbare hend
    · exact readParenthesizedExtent_ok hread
  obtain ⟨o, us, hm, hsignature, hs⟩ := hsplit
  exact ⟨o, hm, by rwa [takenTokens_of_splitsAs hread hs]⟩

end

end MethodSkeleton
