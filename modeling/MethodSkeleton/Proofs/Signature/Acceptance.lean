/-
# `MethodSkeleton.Proofs.Signature.Acceptance` — the two shapes accept exactly their language

`signature_shapes` is the statement: for every list of tokens each of the two functions
answers a method exactly if the list begins with a signature of its shape, and the method
says what that signature says.  It is put together from one statement for each part of a
signature, of the form "the part is read exactly if the list begins with it".

A part that is read leaves located tokens behind, so a part is described by `SplitsAs`, which
keeps the rest located; only the last step forgets where the tokens stand.
-/
import MethodSkeleton.Proofs.Result
import MethodSkeleton.Proofs.Signature.Slot

namespace MethodSkeleton

/-! ## Single tokens -/

/-- What does not know the end of input is accepted only where there is a token. -/
theorem accept_ok_iff {α : Type} {stop : Nat} {pick : Token → Option α}
    {otherwise : Token → ParseCause} {ts rest : Tokens} {a : α}
    (h : pick .endOfInput = none) :
    accept stop pick otherwise ts = .ok (a, rest) ↔
      ∃ t, pick t = some a ∧ SplitsAs ts [t] rest := by
  cases ts with
  | nil => simp [accept, nextToken, endAt, h]
  | cons t ts =>
      cases hp : pick t.value with
      | none =>
          simp only [accept, nextToken, hp, reduceCtorEq, splitsAs_cons_cons_iff, false_iff]
          rintro ⟨_, hu, rfl, _⟩
          rw [hp] at hu
          cases hu
      | some b =>
          simp only [accept, nextToken, hp, Except.ok.injEq, Prod.mk.injEq,
            splitsAs_cons_cons_iff, splitsAs_nil_iff]
          grind

theorem accept_only_ok_iff {stop : Nat} {u : Token} {otherwise : Token → ParseCause}
    {ts rest : Tokens} {a : Unit} (h : u ≠ .endOfInput) :
    accept stop (Token.only u) otherwise ts = .ok (a, rest) ↔ SplitsAs ts [u] rest := by
  rw [accept_ok_iff (by simp [Token.only, h.symm])]
  simp [Token.only]

theorem accept_name_ok_iff {stop : Nat} {otherwise : Token → ParseCause} {ts rest : Tokens}
    {x : String} : accept stop Token.name? otherwise ts = .ok (x, rest) ↔
      SplitsAs ts [.identifier x] rest := by
  rw [accept_ok_iff rfl]
  constructor
  · rintro ⟨t, ht, hs⟩
    cases t <;> simp [Token.name?] at ht
    subst ht
    exact hs
  · intro hs
    exact ⟨.identifier x, rfl, hs⟩

theorem skipStar_of_ne {t : Located Token} {ts : Tokens} (h : t.value ≠ .star) :
    skipStar (t :: ts) = t :: ts := by
  obtain ⟨span, value⟩ := t
  cases value <;> first | rfl | exact absurd rfl h

theorem skipStar_splitsAs_iff {ts rest : Tokens} {x : String} :
    SplitsAs (skipStar ts) [.identifier x] rest ↔
      ∃ star, (star = [] ∨ star = [.star]) ∧ SplitsAs ts (star ++ [.identifier x]) rest := by
  simp only [exists_eq_or_imp, exists_eq_left, List.nil_append, List.singleton_append]
  cases ts with
  | nil => simp [skipStar]
  | cons t ts =>
      by_cases h : t.value = .star
      · obtain ⟨span, value⟩ := t
        cases h
        simp [skipStar]
      · rw [skipStar_of_ne h]
        simp [h]

/-! ## Receiver -/

theorem readReceiver_ok_iff {stop : Nat} {ts rest : Tokens} {receiver : String} :
    readReceiver stop ts = .ok (receiver, rest) ↔
      ∃ x star, (star = [] ∨ star = [.star]) ∧
        SplitsAs ts (.func :: .leftParen :: .identifier x :: star ++
          [.identifier receiver, .rightParen]) rest := by
  have hparts : ∀ x star, (Token.func :: .leftParen :: .identifier x :: star ++
      [.identifier receiver, .rightParen]) =
      [.func] ++ ([.leftParen] ++ ([.identifier x] ++
        ((star ++ [.identifier receiver]) ++ [.rightParen]))) := by
    intro x star
    simp
  simp only [readReceiver, bind_ok_iff, Prod.exists, pure, Except.pure, Except.ok.injEq,
    Prod.mk.injEq, accept_only_ok_iff, accept_name_ok_iff, skipStar_splitsAs_iff, ne_eq,
    reduceCtorEq, not_false_eq_true, hparts, splitsAs_append_iff]
  constructor
  · rintro ⟨_, t₁, h₁, _, t₂, h₂, x, t₃, h₃, r, t₄, ⟨star, hstar, h₄⟩, _, t₅, h₅, rfl, rfl⟩
    exact ⟨x, star, hstar, t₁, h₁, t₂, h₂, t₃, h₃, t₄, h₄, h₅⟩
  · rintro ⟨x, star, hstar, t₁, h₁, t₂, h₂, t₃, h₃, t₄, h₄, h₅⟩
    exact ⟨(), t₁, h₁, (), t₂, h₂, x, t₃, h₃, receiver, t₄, ⟨star, hstar, h₄⟩, (), rest, h₅,
      rfl, rfl⟩

/-! ## Parameters -/

/-- In a list a slot is ended by a comma, which leads to another slot, or by the closing
parenthesis. -/
theorem endsSlot_list_iff {context : SlotContext} {more : Bool} {us : List Token}
    {ts rest : Tokens} (h : context ≠ .resultType) :
    EndsSlot context more us ts rest ↔
      SplitsAs ts (us ++ [if more then .comma else .rightParen]) rest := by
  have hend : context.terminator? .endOfInput ≠ some more := by
    cases context <;> simp [SlotContext.terminator?] at h ⊢
  have he : ∀ e, context.terminator? e = some more ↔
      e = if more then .comma else .rightParen := by
    intro e
    cases context <;> cases e <;> cases more <;> simp [SlotContext.terminator?] at h ⊢
  simp [EndsSlot, hend, he]

theorem isParameterSlot_iff {x : String} (more : Bool) {us : List Token} :
    IsParameterSlot (.identifier x :: us) ↔
      SlotState.opening.Takes .parameter more [] us := by
  constructor
  · intro h
    cases h with
    | bare => exact Or.inr ⟨rfl, rfl, rfl, by simp⟩
    | typed _ h => exact Or.inl (Or.inl h)
    | qualified _ h => exact Or.inl (Or.inr ⟨rfl, rfl, _, rfl, h⟩)
  · rintro ((h | ⟨_, _, vs, rfl, h⟩) | ⟨_, _, rfl, _⟩)
    · exact .typed x h
    · exact .qualified x h
    · exact .bare x

theorem readSlot_parameter_ok_iff {stop : Nat} {ts rest : Tokens} {slot : Slot} (x : String) :
    readSlot .parameter stop .opening [] ts = .ok (slot, rest) ↔
      IsParameterSlot (.identifier x :: slot.tokens) ∧
        SplitsAs ts (slot.tokens ++ [if slot.more then .comma else .rightParen]) rest := by
  rw [readSlot_ok_iff, isParameterSlot_iff slot.more]
  simp [endsSlot_list_iff, and_comm]

/-- Behind a name, the slot that is read decides whether the list goes on. -/
theorem readParameterSlots_identifier {stop : Nat} {t : Located Token} {ts rest : Tokens}
    {x : String} {slot : Slot} (ht : t.value = .identifier x)
    (hs : readSlot .parameter stop .opening [] ts = .ok (slot, rest)) :
    readParameterSlots stop (t :: ts) =
      if slot.more then
        (readParameterSlots stop rest).map fun (parameters, ts) =>
          (ParameterSlot.ofSlot x slot.tokens :: parameters, ts)
      else .ok ([ParameterSlot.ofSlot x slot.tokens], rest) := by
  rw [readParameterSlots]
  simp only [ht]
  split
  · rename_i h
    rw [hs] at h
    cases h
  · rename_i h
    rw [hs] at h
    cases h
    rfl

theorem parameterSlots_of_read {stop : Nat} {ts rest : Tokens} {slots : List ParameterSlot}
    (h : readParameterSlots stop ts = .ok (slots, rest)) :
    ∃ items us, CommaList IsParameterSlot items us ∧
      slots = items.map ParameterSlot.ofTokens ∧ SplitsAs ts (us ++ [.rightParen]) rest := by
  fun_induction readParameterSlots stop ts generalizing slots rest with
  | case1 => cases h
  | case2 t ts ht =>
      cases h
      exact ⟨[], [], .nil, rfl, by simp [ht]⟩
  | case3 t ts x ht e hs => cases h
  | case4 t ts x ht slot mid hs parameter hm =>
      rename_i ih
      obtain ⟨⟨slots', rest'⟩, hr, heq⟩ := map_ok_iff.mp h
      cases heq
      obtain ⟨items, us, hlist, rfl, hus⟩ := ih hr
      obtain ⟨hslot, hfront⟩ := (readSlot_parameter_ok_iff x).mp hs
      refine ⟨(.identifier x :: slot.tokens) :: items, _, .cons hslot hlist, rfl, ?_⟩
      have hsplit := splitsAs_append_iff.mpr ⟨mid, hfront, hus⟩
      simpa [ht, hm] using hsplit
  | case5 t ts x ht slot mid hs parameter =>
      rename_i hm
      cases h
      obtain ⟨hslot, hfront⟩ := (readSlot_parameter_ok_iff x).mp hs
      refine ⟨[.identifier x :: slot.tokens], _, .last hslot, rfl, ?_⟩
      simpa [ht, hm] using hfront
  | case6 => cases h
  | case7 => cases h

/-- A slot has a name in front, and what is behind the name is read as a slot. -/
theorem readSlot_of_isParameterSlot {stop : Nat} {ts rest : Tokens} {item : List Token}
    (more : Bool) (hitem : IsParameterSlot item)
    (hs : SplitsAs ts (item ++ [if more then .comma else .rightParen]) rest) :
    ∃ t mid x us, ts = t :: mid ∧ t.value = .identifier x ∧ item = .identifier x :: us ∧
      readSlot .parameter stop .opening [] mid = .ok (⟨us, more⟩, rest) := by
  obtain ⟨x, us, rfl⟩ : ∃ x us, item = .identifier x :: us := by
    cases hitem with
    | bare x => exact ⟨x, _, rfl⟩
    | typed x _ => exact ⟨x, _, rfl⟩
    | qualified x _ => exact ⟨x, _, rfl⟩
  obtain ⟨t, mid, rfl, ht, hmid⟩ := splitsAs_cons_iff.mp hs
  exact ⟨t, mid, x, us, rfl, ht, rfl, (readSlot_parameter_ok_iff x).mpr ⟨hitem, hmid⟩⟩

theorem readParameterSlots_of_commaList {items : List (List Token)} {us : List Token}
    (h : CommaList IsParameterSlot items us) {stop : Nat} {ts rest : Tokens}
    (hs : SplitsAs ts (us ++ [.rightParen]) rest) :
    readParameterSlots stop ts = .ok (items.map ParameterSlot.ofTokens, rest) := by
  induction h generalizing ts with
  | nil =>
      obtain ⟨t, mid, rfl, ht, hmid⟩ := splitsAs_cons_iff.mp hs
      rw [splitsAs_nil_iff.mp hmid, readParameterSlots]
      simp only [ht, List.map_nil]
  | last hitem =>
      obtain ⟨t, mid, x, vs, rfl, ht, rfl, hread⟩ :=
        readSlot_of_isParameterSlot false hitem hs
      rw [readParameterSlots_identifier ht hread]
      rfl
  | @cons item items us hitem _ ih =>
      have hparts : item ++ Token.comma :: us ++ [.rightParen] =
          (item ++ [.comma]) ++ (us ++ [.rightParen]) := by simp
      rw [hparts] at hs
      obtain ⟨mid, hfront, hback⟩ := splitsAs_append_iff.mp hs
      obtain ⟨t, mid', x, vs, rfl, ht, rfl, hread⟩ :=
        readSlot_of_isParameterSlot true hitem hfront
      rw [readParameterSlots_identifier ht hread, ih hback]
      rfl

theorem readParameters_ok_iff {stop : Nat} {ts rest : Tokens} {parameters : List Parameter} :
    readParameters stop ts = .ok (parameters, rest) ↔
      ∃ items us, CommaList IsParameterSlot items us ∧
        parameters = resolveParameters (items.map ParameterSlot.ofTokens) ∧
        SplitsAs ts (.leftParen :: us ++ [.rightParen]) rest := by
  simp only [readParameters, bind_ok_iff, Prod.exists, pure, Except.pure, Except.ok.injEq,
    Prod.mk.injEq, accept_only_ok_iff, ne_eq, reduceCtorEq, not_false_eq_true]
  constructor
  · rintro ⟨_, t₁, h₁, slots, t₂, h₂, rfl, rfl⟩
    obtain ⟨items, us, hlist, rfl, hus⟩ := parameterSlots_of_read h₂
    exact ⟨items, us, hlist, rfl,
      (@splitsAs_append_iff _ _ [.leftParen] _).mpr ⟨t₁, h₁, hus⟩⟩
  · rintro ⟨items, us, hlist, rfl, hs⟩
    obtain ⟨t₁, h₁, hus⟩ := (@splitsAs_append_iff _ _ [.leftParen] _).mp hs
    exact ⟨(), t₁, h₁, _, rest, readParameterSlots_of_commaList hlist hus, rfl, rfl⟩

/-! ## Results -/

theorem IsType.result? {context : SlotContext} {ts : List Token} (h : IsType context ts)
    (more : Bool) : Slot.result? ⟨ts, more⟩ = some (Token.spell ts) := by
  have hne : ts ≠ [] := by
    rintro rfl
    exact not_isType_nil h
  simp [Slot.result?, hne]

theorem readSlot_resultList_ok_iff {stop : Nat} {ts rest : Tokens} {slot : Slot} :
    readSlot .resultList stop .opening [] ts = .ok (slot, rest) ↔
      (IsType .resultList slot.tokens ∨ (slot.tokens = [] ∧ slot.more = false)) ∧
        SplitsAs ts (slot.tokens ++ [if slot.more then .comma else .rightParen]) rest := by
  rw [readSlot_ok_iff]
  simp [endsSlot_list_iff, SlotState.Takes, SlotState.Completes, and_comm]

theorem resultSlots_of_read {stop : Nat} {ts rest : Tokens} {slots : List Slot}
    (h : readResultSlots stop ts = .ok (slots, rest)) :
    ∃ items us, CommaList (IsType .resultList) items us ∧
      slots.filterMap Slot.result? = items.map Token.spell ∧
      SplitsAs ts (us ++ [.rightParen]) rest := by
  fun_induction readResultSlots stop ts generalizing slots rest with
  | case1 => cases h
  | case2 ts slot mid hs hm ih =>
      obtain ⟨⟨slots', rest'⟩, hr, heq⟩ := map_ok_iff.mp h
      cases heq
      obtain ⟨items, us, hlist, hspell, hus⟩ := ih hr
      obtain ⟨htype, hfront⟩ := readSlot_resultList_ok_iff.mp hs
      have htype : IsType .resultList slot.tokens :=
        htype.resolve_right fun he => by simp [hm] at he
      refine ⟨slot.tokens :: items, _, .cons htype hlist, ?_, ?_⟩
      · rw [List.filterMap_cons, htype.result?, hspell]
        rfl
      · have hsplit := splitsAs_append_iff.mpr ⟨mid, hfront, hus⟩
        simpa [hm] using hsplit
  | case3 ts slot mid hs hm =>
      cases h
      obtain ⟨htype, hfront⟩ := readSlot_resultList_ok_iff.mp hs
      rw [if_neg hm] at hfront
      rcases htype with htype | ⟨hempty, _⟩
      · refine ⟨[slot.tokens], _, .last htype, ?_, hfront⟩
        rw [List.filterMap_cons, htype.result?]
        rfl
      · rw [hempty] at hfront
        refine ⟨[], [], .nil, ?_, hfront⟩
        simp [Slot.result?, hempty]

theorem readResultSlots_of_read {stop : Nat} {ts mid : Tokens} {slot : Slot}
    (hs : readSlot .resultList stop .opening [] ts = .ok (slot, mid)) :
    readResultSlots stop ts =
      if slot.more then
        (readResultSlots stop mid).map fun (slots, ts) => (slot :: slots, ts)
      else .ok ([slot], mid) := by
  rw [readResultSlots]
  split
  · rename_i h
    rw [hs] at h
    cases h
  · rename_i h
    rw [hs] at h
    cases h
    rfl

theorem readResultSlots_of_commaList {items : List (List Token)} {us : List Token}
    (h : CommaList (IsType .resultList) items us) {stop : Nat} {ts rest : Tokens}
    (hs : SplitsAs ts (us ++ [.rightParen]) rest) :
    ∃ slots, readResultSlots stop ts = .ok (slots, rest) ∧
      slots.filterMap Slot.result? = items.map Token.spell := by
  induction h generalizing ts with
  | nil =>
      have hread : readSlot .resultList stop .opening [] ts = .ok (⟨[], false⟩, rest) :=
        readSlot_resultList_ok_iff.mpr ⟨Or.inr ⟨rfl, rfl⟩, hs⟩
      exact ⟨[⟨[], false⟩], readResultSlots_of_read hread, rfl⟩
  | @last item hitem =>
      have hread : readSlot .resultList stop .opening [] ts = .ok (⟨item, false⟩, rest) :=
        readSlot_resultList_ok_iff.mpr ⟨Or.inl hitem, hs⟩
      refine ⟨[⟨item, false⟩], readResultSlots_of_read hread, ?_⟩
      rw [List.filterMap_cons, hitem.result?]
      rfl
  | @cons item items us hitem _ ih =>
      have hparts : item ++ Token.comma :: us ++ [.rightParen] =
          (item ++ [.comma]) ++ (us ++ [.rightParen]) := by simp
      rw [hparts] at hs
      obtain ⟨mid, hfront, hback⟩ := splitsAs_append_iff.mp hs
      have hread : readSlot .resultList stop .opening [] ts = .ok (⟨item, true⟩, mid) :=
        readSlot_resultList_ok_iff.mpr ⟨Or.inl hitem, hfront⟩
      obtain ⟨slots, hslots, hspell⟩ := ih hback
      refine ⟨⟨item, true⟩ :: slots, ?_, ?_⟩
      · rw [readResultSlots_of_read hread, hslots]
        rfl
      · rw [List.filterMap_cons, hitem.result?, hspell]
        rfl

theorem readResultList_ok_iff {stop : Nat} {ts rest : Tokens} {results : List String} :
    readResultList stop ts = .ok (results, rest) ↔
      ∃ items us, CommaList (IsType .resultList) items us ∧ results = items.map Token.spell ∧
        SplitsAs ts (.leftParen :: us ++ [.rightParen]) rest := by
  simp only [readResultList, bind_ok_iff, Prod.exists, pure, Except.pure, Except.ok.injEq,
    Prod.mk.injEq, accept_only_ok_iff, ne_eq, reduceCtorEq, not_false_eq_true]
  constructor
  · rintro ⟨_, t₁, h₁, slots, t₂, h₂, rfl, rfl⟩
    obtain ⟨items, us, hlist, hspell, hus⟩ := resultSlots_of_read h₂
    exact ⟨items, us, hlist, hspell,
      (@splitsAs_append_iff _ _ [.leftParen] _).mpr ⟨t₁, h₁, hus⟩⟩
  · rintro ⟨items, us, hlist, rfl, hs⟩
    obtain ⟨t₁, h₁, hus⟩ := (@splitsAs_append_iff _ _ [.leftParen] _).mp hs
    obtain ⟨slots, hslots, hspell⟩ := readResultSlots_of_commaList hlist hus
    exact ⟨(), t₁, h₁, slots, rest, hslots, hspell, rfl⟩

/-! ## The whole signature -/

/-- A header says nothing about results. -/
theorem IsHeader.withResults {o : Outline} {us : List Token} (h : IsHeader o us)
    (results : List (List Token)) : IsHeader { o with results := results } us := by
  cases h with
  | mk x hstar hlist => exact .mk (o := { o with results := results }) x hstar hlist

theorem readHeader_ok_iff {stop : Nat} {ts rest : Tokens} {m : Method} :
    readHeader stop ts = .ok (m, rest) ↔
      ∃ o us, m = { o.method with results := [] } ∧ IsHeader o us ∧ SplitsAs ts us rest := by
  have hparts : ∀ (x receiver name : String) (star params : List Token),
      (Token.func :: .leftParen :: .identifier x :: star ++ .identifier receiver ::
        .rightParen :: .identifier name :: .leftParen :: params ++ [.rightParen]) =
      (.func :: .leftParen :: .identifier x :: star ++ [.identifier receiver, .rightParen]) ++
        ([.identifier name] ++ (.leftParen :: params ++ [.rightParen])) := by
    intro x receiver name star params
    simp
  simp only [readHeader, bind_ok_iff, Prod.exists, pure, Except.pure, Except.ok.injEq,
    Prod.mk.injEq, accept_name_ok_iff, readReceiver_ok_iff, readParameters_ok_iff]
  constructor
  · rintro ⟨receiver, t₁, ⟨x, star, hstar, h₁⟩, name, t₂, h₂, _, t₃,
      ⟨items, params, hlist, rfl, h₃⟩, rfl, rfl⟩
    refine ⟨⟨receiver, name, items, []⟩, _, rfl, .mk x hstar hlist, ?_⟩
    rw [hparts]
    have h₂₃ := splitsAs_append_iff.mpr ⟨t₂, h₂, h₃⟩
    exact splitsAs_append_iff.mpr ⟨t₁, h₁, h₂₃⟩
  · rintro ⟨o, _, rfl, ⟨x, hstar, hlist⟩, hs⟩
    rw [hparts] at hs
    obtain ⟨t₁, h₁, h₂₃⟩ := splitsAs_append_iff.mp hs
    obtain ⟨t₂, h₂, h₃⟩ := splitsAs_append_iff.mp h₂₃
    exact ⟨o.receiver, t₁, ⟨x, _, hstar, h₁⟩, o.name, t₂, h₂, _, rest,
      ⟨o.slots, _, hlist, rfl, h₃⟩, rfl, rfl⟩

theorem readParenthesizedResults_ok_iff {ts : Tokens} {m : Method} :
    readParenthesizedResults ts = .ok m ↔
      ∃ o, m = o.method ∧ BeginsParenthesized o (ts.map (·.value)) := by
  simp only [readParenthesizedResults, bind_ok_iff, Prod.exists, pure, Except.pure,
    Except.ok.injEq, readHeader_ok_iff, readResultList_ok_iff]
  constructor
  · rintro ⟨_, mid, ⟨o, header, rfl, hheader, h₁⟩, _, rest, ⟨items, us, hlist, rfl, h₂⟩, rfl⟩
    refine ⟨{ o with results := items }, rfl, header, us, rest.map (·.value),
      hheader.withResults items, hlist, ?_⟩
    have hs := splitsAs_append_iff.mpr ⟨mid, h₁, h₂⟩
    simpa using exists_splitsAs_iff.mpr ⟨rest, hs, rfl⟩
  · rintro ⟨o, rfl, header, results, vs, hheader, hlist, heq⟩
    have hparts : header ++ Token.leftParen :: results ++ .rightParen :: vs =
        (header ++ (.leftParen :: results ++ [.rightParen])) ++ vs := by simp
    obtain ⟨rest, hs, _⟩ := exists_splitsAs_iff.mp (heq.trans hparts)
    obtain ⟨mid, h₁, h₂⟩ := splitsAs_append_iff.mp hs
    exact ⟨_, mid, ⟨o, header, rfl, hheader, h₁⟩, _, rest,
      ⟨o.results, results, hlist, rfl, h₂⟩, rfl⟩

theorem terminator?_resultType_iff {e : Token} {more : Bool} :
    SlotContext.resultType.terminator? e = some more ↔
      more = false ∧ (e = .leftBrace ∨ e = .endOfInput) := by
  cases e <;> simp [SlotContext.terminator?, eq_comm]

theorem endsSlot_resultType_iff {more : Bool} {us : List Token} {ts : Tokens} :
    (∃ rest, EndsSlot .resultType more us ts rest) ↔
      more = false ∧ ∃ rest, SplitsAs ts us rest ∧ EndsBareResult (rest.map (·.value)) := by
  constructor
  · rintro ⟨rest, ⟨e, he, hs⟩ | ⟨he, hs, rfl⟩⟩
    · obtain ⟨hmore, he⟩ := terminator?_resultType_iff.mp he
      obtain ⟨mid, hus, hend⟩ := splitsAs_append_iff.mp hs
      obtain ⟨t, _, rfl, rfl, _⟩ := splitsAs_cons_iff.mp hend
      refine ⟨hmore, _, hus, Or.inr ?_⟩
      exact he.imp (fun h => ⟨_, by rw [List.map_cons, h]⟩) (fun h => ⟨_, by rw [List.map_cons, h]⟩)
    · exact ⟨(terminator?_resultType_iff.mp he).1, [], hs, Or.inl rfl⟩
  · rintro ⟨rfl, rest, hus, hend⟩
    cases rest with
    | nil => exact ⟨[], Or.inr ⟨rfl, hus, rfl⟩⟩
    | cons t rest =>
        have ht : t.value = .leftBrace ∨ t.value = .endOfInput := by
          simpa [EndsBareResult] using hend
        refine ⟨rest, Or.inl ⟨t.value, terminator?_resultType_iff.mpr ⟨rfl, ht⟩, ?_⟩⟩
        exact splitsAs_append_iff.mpr ⟨t :: rest, hus, by simp⟩

/-- A bare result is read exactly if a type, or nothing, is in front of what ends it. -/
theorem readSlot_resultType_ok_iff {stop : Nat} {ts : Tokens} {slot : Slot} :
    (∃ rest, readSlot .resultType stop .opening [] ts = .ok (slot, rest)) ↔
      slot.more = false ∧ (IsType .resultType slot.tokens ∨ slot.tokens = []) ∧
        ∃ rest, SplitsAs ts slot.tokens rest ∧ EndsBareResult (rest.map (·.value)) := by
  simp only [readSlot_ok_iff, List.nil_append, exists_eq_left', exists_and_right,
    endsSlot_resultType_iff]
  simp [SlotState.Takes, SlotState.Completes]
  grind

theorem readBareResult_ok_iff {ts : Tokens} {m : Method} :
    readBareResult ts = .ok m ↔ ∃ o, m = o.method ∧ BeginsBare o (ts.map (·.value)) := by
  simp only [readBareResult, bind_ok_iff, Prod.exists, pure, Except.pure,
    Except.ok.injEq, readHeader_ok_iff]
  constructor
  · rintro ⟨_, mid, ⟨o, header, rfl, hheader, h₁⟩, slot, rest, hread, rfl⟩
    obtain ⟨hmore, htype, rest, h₂, hend⟩ := readSlot_resultType_ok_iff.mp ⟨rest, hread⟩
    have hs := exists_splitsAs_iff.mpr ⟨rest, splitsAs_append_iff.mpr ⟨mid, h₁, h₂⟩, rfl⟩
    rcases htype with htype | hempty
    · refine ⟨{ o with results := [slot.tokens] }, ?_, header, slot.tokens, _,
        hheader.withResults _, .some htype, hend, hs⟩
      show { o.method with results := (Slot.result? ⟨slot.tokens, slot.more⟩).toList } = _
      rw [htype.result?]
      rfl
    · refine ⟨{ o with results := [] }, ?_, header, slot.tokens, _,
        hheader.withResults _, hempty ▸ .none, hend, hs⟩
      simp [Slot.result?, hempty, Outline.method]
  · rintro ⟨o, rfl, header, type, vs, hheader, htype, hend, heq⟩
    obtain ⟨rest, hs, rfl⟩ := exists_splitsAs_iff.mp heq
    obtain ⟨mid, h₁, h₂⟩ := splitsAs_append_iff.mp hs
    obtain ⟨receiver, name, slots, results⟩ := o
    have hread : ∀ us, IsType .resultType us ∨ us = [] → SplitsAs mid us rest →
        ∃ rest', readSlot .resultType (endPosition ts) .opening [] mid = .ok (⟨us, false⟩, rest') :=
      fun us htype hus => readSlot_resultType_ok_iff.mpr ⟨rfl, htype, rest, hus, hend⟩
    cases htype with
    | none =>
        obtain ⟨rest', hread⟩ := hread [] (Or.inr rfl) h₂
        exact ⟨_, mid, ⟨_, header, rfl, hheader, h₁⟩, _, rest', hread, rfl⟩
    | some htype =>
        obtain ⟨rest', hread⟩ := hread type (Or.inl htype) h₂
        refine ⟨_, mid, ⟨_, header, rfl, hheader, h₁⟩, _, rest', hread, ?_⟩
        rw [htype.result?]
        rfl

/-- **Both shapes accept exactly their language and read the method off it.**  A list is
accepted if and only if it begins with a signature of the shape, and however it is seen to
begin with one, the method follows it. -/
theorem signature_shapes (ts : Tokens) :
    ((∃ m, readParenthesizedResults ts = .ok m) ↔
      ∃ o, BeginsParenthesized o (ts.map (·.value))) ∧
    ((∃ m, readBareResult ts = .ok m) ↔ ∃ o, BeginsBare o (ts.map (·.value))) ∧
    (∀ o m, BeginsParenthesized o (ts.map (·.value)) → readParenthesizedResults ts = .ok m →
      m.Follows o) ∧
    (∀ o m, BeginsBare o (ts.map (·.value)) → readBareResult ts = .ok m → m.Follows o) := by
  refine ⟨?_, ?_, ?_, ?_⟩
  · constructor
    · rintro ⟨m, h⟩
      obtain ⟨o, _, hb⟩ := readParenthesizedResults_ok_iff.mp h
      exact ⟨o, hb⟩
    · rintro ⟨o, hb⟩
      exact ⟨o.method, readParenthesizedResults_ok_iff.mpr ⟨o, rfl, hb⟩⟩
  · constructor
    · rintro ⟨m, h⟩
      obtain ⟨o, _, hb⟩ := readBareResult_ok_iff.mp h
      exact ⟨o, hb⟩
    · rintro ⟨o, hb⟩
      exact ⟨o.method, readBareResult_ok_iff.mpr ⟨o, rfl, hb⟩⟩
  · intro o m hb h
    have ho := readParenthesizedResults_ok_iff.mpr ⟨o, rfl, hb⟩
    rw [ho] at h
    cases h
    exact o.method_follows
  · intro o m hb h
    have ho := readBareResult_ok_iff.mpr ⟨o, rfl, hb⟩
    rw [ho] at h
    cases h
    exact o.method_follows

/-- `func (d *db) Get(a.*b, c,) (error,)`: a type with a package in front, a trailing comma
in either list. -/
theorem signature_shapes_trailing_commas :
    let ts : Tokens := [.func, .leftParen, .identifier "d", .star, .identifier "db", .rightParen,
      .identifier "Get", .leftParen, .identifier "a", .dot, .star, .identifier "b", .comma,
      .identifier "c", .comma, .rightParen, .leftParen, .identifier "error", .comma,
      .rightParen].map fun t => ⟨Span.at 0, t⟩
    let o : Outline := ⟨"db", "Get",
      [[.identifier "a", .dot, .star, .identifier "b"], [.identifier "c"]],
      [[.identifier "error"]]⟩
    BeginsParenthesized o (ts.map (·.value)) ∧
      ∃ m, readParenthesizedResults ts = .ok m ∧ m.Follows o := by
  intro ts o
  have hslots : CommaList IsParameterSlot o.slots _ :=
    .cons (.qualified "a" (.marked .star (.name "b"))) (.cons (.bare "c") .nil)
  have hb : BeginsParenthesized o (ts.map (·.value)) :=
    ⟨_, _, [], .mk "d" (Or.inr rfl) hslots, .cons (.name "error") .nil, rfl⟩
  obtain ⟨haccepts, _, hfollows, _⟩ := signature_shapes ts
  obtain ⟨m, hm⟩ := haccepts.mpr ⟨o, hb⟩
  exact ⟨hb, m, hm, hfollows o m hb hm⟩

end MethodSkeleton
