/-
# `MethodSkeleton.Proofs.Layout.Verdict` — which sources are refused, and why

`reformatBytes_verdict` says which bytes the layout accepts and, for all others, which error
it gives.  Both sides are said without the stack: a source is accepted if it is a text,
every stretch of it is a token, its delimiters nest and every comma follows an element;
otherwise the error is the first of what is wrong, in the order of the constructors of
`Refused`.

The proof follows the tokens one by one.  `Breaks before t cause` is what it means that the
token `t` is at fault behind the tokens `before`, and `tokenFault?` is how the fault is found
from the stack; an invariant (`Behind`) keeps the stack and the last token in step with
`before`.
-/
import MethodSkeleton.Layout.Page
import MethodSkeleton.Proofs.Layout.Nesting
import MethodSkeleton.Source.RawToken

namespace MethodSkeleton

/-! ## The rules -/

/-- The tokens that the rules look at: neither comments nor line breaks. -/
def significant (ts : List (Located RawToken)) : List (Located Kind) :=
  (ts.map fun t => ⟨t.span, t.value.kind⟩).filter
    fun t => !(t.value == .newline || t.value.isComment)

/-- A comma here has no element in front of it: it is the first token, or the token in front
opens a delimiter or is a comma itself. -/
def LacksElement (before : List (Located Kind)) : Prop :=
  ∀ t, before.getLast? = some t → t.value ∈ [.leftParen, .leftBracket, .leftBrace, .comma]

/-- `Breaks before t cause`: behind the tokens `before` the token `t` breaks a rule. -/
inductive Breaks (before : List (Located Kind)) (t : Located Kind) : LayoutCause → Prop
  | emptyElement : t.value = .comma → LacksElement before → Breaks before t .emptyElement
  | unexpectedClose {b : Bracket} : t.value.closes? = some b → LeavesOpen before [] →
      Breaks before t (.unexpectedClose b)
  | mismatched {b : Bracket} {o : Located Bracket} {opened : List (Located Bracket)} :
      t.value.closes? = some b → LeavesOpen before (o :: opened) → o.value ≠ b →
      Breaks before t (.mismatched o.value b)

/-- Behind the tokens `before`, no token of `ts` breaks a rule. -/
def KeepRules (before ts : List (Located Kind)) : Prop :=
  ∀ mid t after cause, ts = mid ++ t :: after → ¬ Breaks (before ++ mid) t cause

/-- The bytes are a text, every stretch of it is a token, its delimiters nest, and no comma
lacks an element in front of it. -/
def Accepted (bytes : ByteArray) : Prop :=
  ∃ source ts, String.fromUTF8? bytes = some source ∧ rawTokens source = .ok ts ∧
    Nested ((significant ts).map (·.value)) ∧
    ∀ before t after, significant ts = before ++ t :: after → t.value = .comma →
      ¬ LacksElement before

/-- The fault of the tokens `ts` behind the tokens `before`: the first token that breaks a
rule, and only if none does, the innermost delimiter that is still open at the end. -/
inductive NestingFault (before ts : List (Located Kind)) : LayoutError → Prop
  | token {mid after : List (Located Kind)} {t : Located Kind} {cause : LayoutCause} :
      ts = mid ++ t :: after → KeepRules before mid → Breaks (before ++ mid) t cause →
      NestingFault before ts ⟨cause, t.span⟩
  | unclosed {o : Located Bracket} {opened : List (Located Bracket)} :
      KeepRules before ts → LeavesOpen (before ++ ts) (o :: opened) →
      NestingFault before ts ⟨.unclosed o.value, o.span⟩

/-- Why bytes are refused. -/
inductive Refused (bytes : ByteArray) : LayoutError → Prop
  | invalidUtf8 : String.fromUTF8? bytes = none →
      Refused bytes ⟨.invalidUtf8, ⟨validPrefix bytes, bytes.size⟩⟩
  | scan {source : String} {fault : Located ScanFault} :
      String.fromUTF8? bytes = some source → rawTokens source = .error fault →
      Refused bytes ⟨.scan fault.value, fault.span⟩
  | nesting {source : String} {ts : List (Located RawToken)} {e : LayoutError} :
      String.fromUTF8? bytes = some source → rawTokens source = .ok ts →
      NestingFault [] (significant ts) e → Refused bytes e

/-! ## One token -/

/-- The fault of the token `t` behind the token `last`, where `opened` are open. -/
def tokenFault? (opened : List (Located Bracket)) (last : Option Kind) (t : Located Kind) :
    Option LayoutCause :=
  if t.value = .comma ∧ lacksElement last = true then some .emptyElement
  else
    match t.value.closes?, opened with
    | some b, [] => some (.unexpectedClose b)
    | some b, o :: _ => if o.value = b then none else some (.mismatched o.value b)
    | none, _ => none

theorem nestingFault?_of_fault {opened : List (Located Bracket)} {last : Option Kind}
    {t : Located Kind} {cause : LayoutCause} (h : tokenFault? opened last t = some cause)
    (ts : List (Located Kind)) :
    nestingFault? opened last (t :: ts) = some ⟨cause, t.span⟩ := by
  simp only [tokenFault?] at h
  split at h
  · rename_i hc
    cases h
    simp only [nestingFault?, if_pos hc]
  · rename_i hc
    split at h
    · rename_i b hb
      cases h
      simp only [nestingFault?, if_neg hc, opens?_eq_none_of_closes? hb, hb]
    · rename_i b o outer hb
      split at h
      · cases h
      · rename_i hne
        cases h
        simp only [nestingFault?, if_neg hc, opens?_eq_none_of_closes? hb, hb, if_neg hne]
    · cases h

theorem openBehind?_of_no_fault {opened : List (Located Bracket)} {last : Option Kind}
    {t : Located Kind} (h : tokenFault? opened last t = none) :
    ∃ opened', openBehind? opened t = some opened' ∧
      ∀ ts, nestingFault? opened last (t :: ts) = nestingFault? opened' (some t.value) ts := by
  simp only [tokenFault?] at h
  split at h
  · cases h
  · rename_i hc
    cases ho : t.value.opens? with
    | some b =>
        refine ⟨_, openBehind?_of_opens? ho, fun ts => ?_⟩
        simp only [nestingFault?, if_neg hc, ho]
    | none =>
        cases hb : t.value.closes? with
        | none =>
            refine ⟨_, openBehind?_of_other ho hb, fun ts => ?_⟩
            simp only [nestingFault?, if_neg hc, ho, hb]
        | some b =>
            rw [hb] at h
            cases opened with
            | nil => cases h
            | cons o outer =>
                by_cases hob : o.value = b
                · refine ⟨outer, (openBehind?_of_closes?_iff hb).mpr ⟨o, rfl, hob⟩, fun ts => ?_⟩
                  simp only [nestingFault?, if_neg hc, ho, hb, if_pos hob]
                · simp [hob] at h

/-! ## The invariant -/

/-- What is known behind the tokens `before`: what they leave open, and the last of them. -/
structure Behind (before : List (Located Kind)) (opened : List (Located Bracket))
    (last : Option Kind) : Prop where
  leaves : LeavesOpen before opened
  last_eq : last = before.getLast?.map (·.value)

theorem behind_nil : Behind [] [] none where
  leaves := .nested .nil
  last_eq := rfl

theorem Behind.snoc {before : List (Located Kind)} {opened opened' : List (Located Bracket)}
    {last : Option Kind} {t : Located Kind} (h : Behind before opened last)
    (ht : openBehind? opened t = some opened') : Behind (before ++ [t]) opened' (some t.value) where
  leaves := h.leaves.snoc ht
  last_eq := by simp

theorem lacksElement_iff {before : List (Located Kind)} :
    lacksElement (before.getLast?.map (·.value)) = true ↔ LacksElement before := by
  cases hl : before.getLast? with
  | none => simp [lacksElement, LacksElement, hl]
  | some t =>
      simp only [LacksElement, hl, Option.map_some, Option.some.injEq, forall_eq']
      cases t.value <;> simp [lacksElement, Kind.opens?]

/-- A token breaks a rule exactly if the stack and the last token show it. -/
theorem Behind.breaks_iff {before : List (Located Kind)} {opened : List (Located Bracket)}
    {last : Option Kind} {t : Located Kind} {cause : LayoutCause}
    (h : Behind before opened last) :
    Breaks before t cause ↔ tokenFault? opened last t = some cause := by
  have hopen := openAfter?_of_leavesOpen h.leaves
  have hlast : lacksElement last = true ↔ LacksElement before := by
    rw [h.last_eq]
    exact lacksElement_iff
  constructor
  · intro hb
    cases hb with
    | emptyElement hc hl => simp [tokenFault?, hc, hlast.mpr hl]
    | @unexpectedClose b hc hl =>
        have hcomma : t.value ≠ .comma := by
          intro hv
          rw [hv] at hc
          cases hc
        rw [openAfter?_of_leavesOpen hl] at hopen
        cases hopen
        simp [tokenFault?, hc, hcomma]
    | @mismatched b o outer hc hl hne =>
        have hcomma : t.value ≠ .comma := by
          intro hv
          rw [hv] at hc
          cases hc
        rw [openAfter?_of_leavesOpen hl] at hopen
        cases hopen
        simp [tokenFault?, hc, hcomma, hne]
  · intro ht
    simp only [tokenFault?] at ht
    split at ht
    · rename_i hc
      cases ht
      exact .emptyElement hc.1 (hlast.mp hc.2)
    · split at ht
      · rename_i b hb
        cases ht
        exact .unexpectedClose hb h.leaves
      · rename_i b o outer hb
        split at ht
        · cases ht
        · rename_i hne
          cases ht
          exact .mismatched hb h.leaves hne
      · cases ht

/-! ## All tokens -/

theorem keepRules_nil (before : List (Located Kind)) : KeepRules before [] := by
  intro mid t after cause h
  cases mid <;> cases h

theorem keepRules_cons_iff {before ts : List (Located Kind)} {t : Located Kind} :
    KeepRules before (t :: ts) ↔
      (∀ cause, ¬ Breaks before t cause) ∧ KeepRules (before ++ [t]) ts := by
  constructor
  · intro h
    refine ⟨fun cause hb => h [] t ts cause rfl (by rwa [List.append_nil]), ?_⟩
    intro mid u after cause hts
    have := h (t :: mid) u after cause (by rw [hts, List.cons_append])
    rwa [List.append_cons] at this
  · rintro ⟨ht, hts⟩ mid u after cause h
    cases mid with
    | nil =>
        cases h
        rw [List.append_nil]
        exact ht cause
    | cons v mid =>
        cases h
        rw [List.append_cons]
        exact hts mid u after cause rfl

theorem nestingFault_cons_iff {before ts : List (Located Kind)} {t : Located Kind}
    {e : LayoutError} : NestingFault before (t :: ts) e ↔
      (∃ cause, Breaks before t cause ∧ e = ⟨cause, t.span⟩) ∨
      ((∀ cause, ¬ Breaks before t cause) ∧ NestingFault (before ++ [t]) ts e) := by
  constructor
  · intro h
    cases h with
    | @token mid after u cause hts hk hb =>
        cases mid with
        | nil =>
            cases hts
            rw [List.append_nil] at hb
            exact Or.inl ⟨cause, hb, rfl⟩
        | cons v mid =>
            cases hts
            obtain ⟨hv, hk⟩ := keepRules_cons_iff.mp hk
            rw [List.append_cons] at hb
            exact Or.inr ⟨hv, .token rfl hk hb⟩
    | unclosed hk hl =>
        obtain ⟨ht, hk⟩ := keepRules_cons_iff.mp hk
        rw [List.append_cons] at hl
        exact Or.inr ⟨ht, .unclosed hk hl⟩
  · rintro (⟨cause, hb, rfl⟩ | ⟨ht, h⟩)
    · exact @NestingFault.token _ _ [] _ _ _ rfl (keepRules_nil before) (by rwa [List.append_nil])
    · cases h with
      | @token mid after u cause hts hk hb =>
          rw [← List.append_cons] at hb
          exact @NestingFault.token _ _ (t :: mid) _ _ _ (by rw [hts, List.cons_append])
            (keepRules_cons_iff.mpr ⟨ht, hk⟩) hb
      | unclosed hk hl =>
          rw [← List.append_cons] at hl
          exact .unclosed (keepRules_cons_iff.mpr ⟨ht, hk⟩) hl

theorem nestingFault_nil_iff {before : List (Located Kind)} {opened : List (Located Bracket)}
    {e : LayoutError} (h : LeavesOpen before opened) : NestingFault before [] e ↔
      ∃ o outer, opened = o :: outer ∧ e = ⟨.unclosed o.value, o.span⟩ := by
  have hopen := openAfter?_of_leavesOpen h
  constructor
  · intro hf
    cases hf with
    | @token mid _ _ _ hts =>
        cases mid <;> cases hts
    | unclosed _ hl =>
        rw [List.append_nil] at hl
        rw [openAfter?_of_leavesOpen hl] at hopen
        cases hopen
        exact ⟨_, _, rfl, rfl⟩
  · rintro ⟨o, outer, rfl, rfl⟩
    exact .unclosed (keepRules_nil before) (by rwa [List.append_nil])

/-- The run finds the fault that there is. -/
theorem Behind.nestingFault?_eq_some_iff {before ts : List (Located Kind)}
    {opened : List (Located Bracket)} {last : Option Kind} {e : LayoutError}
    (h : Behind before opened last) :
    nestingFault? opened last ts = some e ↔ NestingFault before ts e := by
  induction ts generalizing before opened last with
  | nil =>
      rw [nestingFault_nil_iff h.leaves]
      cases opened <;> simp [nestingFault?, eq_comm]
  | cons t ts ih =>
      rw [nestingFault_cons_iff]
      simp only [h.breaks_iff]
      cases hf : tokenFault? opened last t with
      | some cause =>
          rw [nestingFault?_of_fault hf]
          simp [eq_comm]
      | none =>
          obtain ⟨opened', ho, hrun⟩ := openBehind?_of_no_fault hf
          rw [hrun, ih (h.snoc ho)]
          simp

/-- The run finds no fault where there is none. -/
theorem Behind.nestingFault?_eq_none_iff {before ts : List (Located Kind)}
    {opened : List (Located Bracket)} {last : Option Kind} (h : Behind before opened last) :
    nestingFault? opened last ts = none ↔ KeepRules before ts ∧ LeavesOpen (before ++ ts) [] := by
  induction ts generalizing before opened last with
  | nil =>
      rw [List.append_nil, ← openAfter?_eq_some_iff, openAfter?_of_leavesOpen h.leaves]
      cases opened <;> simp [nestingFault?, keepRules_nil]
  | cons t ts ih =>
      rw [keepRules_cons_iff, List.append_cons]
      simp only [h.breaks_iff]
      cases hf : tokenFault? opened last t with
      | some cause =>
          rw [nestingFault?_of_fault hf]
          simp
      | none =>
          obtain ⟨opened', ho, hrun⟩ := openBehind?_of_no_fault hf
          rw [hrun, ih (h.snoc ho)]
          simp

/-- Where delimiters nest, only a comma can break a rule. -/
theorem keepRules_iff_of_nested {ts : List (Located Kind)} (h : Nested (ts.map (·.value))) :
    KeepRules [] ts ↔ ∀ before t after, ts = before ++ t :: after → t.value = .comma →
      ¬ LacksElement before := by
  constructor
  · intro hk before t after hts hc hl
    exact hk before t after _ hts (.emptyElement hc hl)
  · intro hcommas before t after cause hts hb
    have hrun := openAfter?_of_nested h [] ts rfl
    rw [hts, openAfter?_append] at hrun
    obtain ⟨opened, hbefore, hrun⟩ := Option.bind_eq_some_iff.mp hrun
    obtain ⟨opened', ht, _⟩ := Option.bind_eq_some_iff.mp hrun
    rw [List.nil_append] at hb
    cases hb with
    | emptyElement hc hl => exact hcommas before t after hts hc hl
    | unexpectedClose hc hl =>
        rw [openAfter?_of_leavesOpen hl] at hbefore
        cases hbefore
        obtain ⟨o, ho, _⟩ := (openBehind?_of_closes?_iff hc).mp ht
        cases ho
    | mismatched hc hl hne =>
        rw [openAfter?_of_leavesOpen hl] at hbefore
        cases hbefore
        obtain ⟨o, ho, hob⟩ := (openBehind?_of_closes?_iff hc).mp ht
        cases ho
        exact hne hob

/-! ## The whole source -/

theorem scanFault?_eq (xs : List (Located Lexeme)) :
    scanFault? xs =
      match rawTokensOf xs with
      | .error fault => some ⟨.scan fault.value, fault.span⟩
      | .ok _ => none := by
  induction xs with
  | nil => rfl
  | cons x xs ih =>
      cases hx : x.value.is with
      | blank => simp [scanFault?, rawTokensOf, hx, ih]
      | token kind =>
          simp only [scanFault?, rawTokensOf, hx, ih]
          cases rawTokensOf xs <;> rfl
      | fault why => simp [scanFault?, rawTokensOf, hx]

theorem significant_cons (t : Located RawToken) (ts : List (Located RawToken)) :
    significant (t :: ts) =
      if t.value.kind == .newline || t.value.kind.isComment then significant ts
      else ⟨t.span, t.value.kind⟩ :: significant ts := by
  simp only [significant, List.map_cons, List.filter_cons]
  cases t.value.kind == .newline || t.value.kind.isComment <;> rfl

theorem significant_append (ts us : List (Located RawToken)) :
    significant (ts ++ us) = significant ts ++ significant us := by
  simp [significant]

theorem significant_filter_newline (ts : List (Located RawToken)) :
    significant (ts.filter (·.value.kind != .newline)) = significant ts := by
  induction ts with
  | nil => rfl
  | cons t ts ih =>
      rw [significant_cons t ts, List.filter_cons]
      by_cases hn : t.value.kind = .newline
      · simp [hn, ih]
      · simp [hn, significant_cons, ih]

theorem significantKinds_eq {xs : List (Located Lexeme)} {ts : List (Located RawToken)}
    (h : rawTokensOf xs = .ok ts) : significantKinds xs = significant ts := by
  induction xs generalizing ts with
  | nil =>
      cases h
      rfl
  | cons x xs ih =>
      cases hx : x.value.is with
      | blank =>
          simp only [rawTokensOf, hx] at h
          simpa [significantKinds, hx] using ih h
      | token kind =>
          simp only [rawTokensOf, hx] at h
          cases hr : rawTokensOf xs with
          | error e =>
              rw [hr] at h
              cases h
          | ok us =>
              rw [hr] at h
              cases h
              rw [significant_cons, ← ih hr]
              simp only [significantKinds, List.filterMap_cons, hx]
              cases kind == .newline || kind.isComment <;> rfl
      | fault why =>
          simp only [rawTokensOf, hx] at h
          cases h

/-- What the layout refuses a text for. -/
theorem layoutFault?_eq (source : String) :
    layoutFault? (Lexeme.locate 0 (lexemes source.toList)) =
      match rawTokens source with
      | .error fault => some ⟨.scan fault.value, fault.span⟩
      | .ok ts => nestingFault? [] none (significant ts) := by
  rw [layoutFault?, scanFault?_eq]
  show _ = match rawTokensOf _ with
    | .error fault => _
    | .ok ts => _
  cases h : rawTokensOf (Lexeme.locate 0 (lexemes source.toList)) with
  | error fault => rfl
  | ok ts => simp only [significantKinds_eq h]

theorem reformat_ok_iff {source out : String} : reformat source = .ok out ↔
    layoutFault? (Lexeme.locate 0 (lexemes source.toList)) = none ∧
      out = String.ofList (layout (Piece.ofLexemes none (lexemes source.toList))) := by
  cases h : layoutFault? (Lexeme.locate 0 (lexemes source.toList)) <;>
    simp [reformat, h, eq_comm]

theorem reformat_error_iff {source : String} {e : LayoutError} : reformat source = .error e ↔
    layoutFault? (Lexeme.locate 0 (lexemes source.toList)) = some e := by
  cases h : layoutFault? (Lexeme.locate 0 (lexemes source.toList)) <;> simp [reformat, h]

theorem reformatBytes_of_text {bytes : ByteArray} {source : String}
    (h : String.fromUTF8? bytes = some source) : reformatBytes bytes = reformat source := by
  simp [reformatBytes, decodeUtf8, h]

theorem reformatBytes_of_no_text {bytes : ByteArray} (h : String.fromUTF8? bytes = none) :
    reformatBytes bytes = .error ⟨.invalidUtf8, ⟨validPrefix bytes, bytes.size⟩⟩ := by
  simp [reformatBytes, decodeUtf8, h]

/-! What is accepted and what is refused, by how far a source is read. -/

theorem not_accepted_of_no_text {bytes : ByteArray} (h : String.fromUTF8? bytes = none) :
    ¬ Accepted bytes := by
  rintro ⟨source, ts, hb, _⟩
  rw [h] at hb
  cases hb

theorem not_accepted_of_fault {bytes : ByteArray} {source : String} {fault : Located ScanFault}
    (h : String.fromUTF8? bytes = some source) (hr : rawTokens source = .error fault) :
    ¬ Accepted bytes := by
  rintro ⟨source', ts, hb, hts, _⟩
  rw [h] at hb
  cases hb
  rw [hr] at hts
  cases hts

theorem accepted_iff_of_tokens {bytes : ByteArray} {source : String}
    {ts : List (Located RawToken)} (h : String.fromUTF8? bytes = some source)
    (hr : rawTokens source = .ok ts) :
    Accepted bytes ↔ KeepRules [] (significant ts) ∧ LeavesOpen (significant ts) [] := by
  rw [leavesOpen_nil_iff]
  constructor
  · rintro ⟨source', ts', hb, hts, hn, hc⟩
    rw [h] at hb
    cases hb
    rw [hr] at hts
    cases hts
    exact ⟨(keepRules_iff_of_nested hn).mpr hc, hn⟩
  · rintro ⟨hk, hn⟩
    exact ⟨source, ts, h, hr, hn, (keepRules_iff_of_nested hn).mp hk⟩

theorem refused_iff_of_no_text {bytes : ByteArray} {e : LayoutError}
    (h : String.fromUTF8? bytes = none) :
    Refused bytes e ↔ e = ⟨.invalidUtf8, ⟨validPrefix bytes, bytes.size⟩⟩ := by
  constructor
  · intro hf
    cases hf with
    | invalidUtf8 => rfl
    | scan hb =>
        rw [h] at hb
        cases hb
    | nesting hb =>
        rw [h] at hb
        cases hb
  · rintro rfl
    exact .invalidUtf8 h

theorem refused_iff_of_fault {bytes : ByteArray} {source : String} {fault : Located ScanFault}
    {e : LayoutError} (h : String.fromUTF8? bytes = some source)
    (hr : rawTokens source = .error fault) :
    Refused bytes e ↔ e = ⟨.scan fault.value, fault.span⟩ := by
  constructor
  · intro hf
    cases hf with
    | invalidUtf8 hb =>
        rw [h] at hb
        cases hb
    | scan hb hts =>
        rw [h] at hb
        cases hb
        rw [hr] at hts
        cases hts
        rfl
    | nesting hb hts =>
        rw [h] at hb
        cases hb
        rw [hr] at hts
        cases hts
  · rintro rfl
    exact .scan h hr

theorem refused_iff_of_tokens {bytes : ByteArray} {source : String}
    {ts : List (Located RawToken)} {e : LayoutError} (h : String.fromUTF8? bytes = some source)
    (hr : rawTokens source = .ok ts) :
    Refused bytes e ↔ NestingFault [] (significant ts) e := by
  constructor
  · intro hf
    cases hf with
    | invalidUtf8 hb =>
        rw [h] at hb
        cases hb
    | scan hb hts =>
        rw [h] at hb
        cases hb
        rw [hr] at hts
        cases hts
    | nesting hb hts hf =>
        rw [h] at hb
        cases hb
        rw [hr] at hts
        cases hts
        exact hf
  · exact .nesting h hr

/-- **Which sources are refused, and why.**  Bytes are laid out exactly if they are
accepted, and they are refused with an error exactly if it is the first of what is wrong with
them. -/
theorem reformatBytes_verdict (bytes : ByteArray) :
    ((∃ out, reformatBytes bytes = .ok out) ↔ Accepted bytes) ∧
    ∀ e, reformatBytes bytes = .error e ↔ Refused bytes e := by
  cases hb : String.fromUTF8? bytes with
  | none =>
      rw [reformatBytes_of_no_text hb]
      simp only [refused_iff_of_no_text hb, not_accepted_of_no_text hb, iff_false]
      constructor
      · rintro ⟨out, h⟩
        cases h
      · intro e
        rw [Except.error.injEq, eq_comm]
  | some source =>
      rw [reformatBytes_of_text hb]
      simp only [reformat_ok_iff, reformat_error_iff, layoutFault?_eq]
      cases hr : rawTokens source with
      | error fault =>
          simp only [refused_iff_of_fault hb hr, not_accepted_of_fault hb hr, iff_false]
          constructor
          · rintro ⟨out, h, _⟩
            cases h
          · intro e
            rw [Option.some.injEq, eq_comm]
      | ok ts =>
          simp only [refused_iff_of_tokens hb hr, accepted_iff_of_tokens hb hr,
            behind_nil.nestingFault?_eq_none_iff, behind_nil.nestingFault?_eq_some_iff,
            exists_and_left, exists_eq, and_true, List.nil_append, implies_true]

end MethodSkeleton
