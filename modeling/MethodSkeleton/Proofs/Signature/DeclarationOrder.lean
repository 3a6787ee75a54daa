/-
# `MethodSkeleton.Proofs.Signature.DeclarationOrder` — which parameter a slot declares

A name without a type waits for the type of the next typed slot, while a slot that writes the type
of a package declares its parameter at once.  So the parameters come in the order of the slots
exactly if no such slot comes between a name and the type that the name waits for, or the end of the
list (`parameters_in_order_iff`); in `a, b.C, c int` the name `a` is overtaken.  In a list without
any typed slot nothing waits.

The induction goes over the slots, with the names that wait in front of them, and says when the
parameters are those of both (`declares_groupParameters_iff`).  That a parameter without a name is
told from one with a name needs that no identifier of a text is empty.
-/
import MethodSkeleton.Proofs.Signature.Continuation

namespace MethodSkeleton

/-! ## Slots by kind -/

/-- A slot with a name and a type. -/
def IsTypedSlot (slot : List Token) : Prop :=
  ∃ x type, slot = .identifier x :: type ∧ IsType .parameter type

/-- A slot with the type of a package. -/
def IsQualifiedSlot (slot : List Token) : Prop :=
  ∃ x type, slot = .identifier x :: .dot :: type ∧ IsType .parameter type

section
variable {x : String} {type : List Token}

@[simp] theorem not_isTypedSlot_bare : ¬ IsTypedSlot [.identifier x] := by
  rintro ⟨_, _, h, htype⟩
  cases h
  exact not_isType_nil htype

@[simp] theorem not_isTypedSlot_qualified : ¬ IsTypedSlot (.identifier x :: .dot :: type) := by
  rintro ⟨_, _, h, htype⟩
  cases h
  exact not_isType_dot htype

@[simp] theorem not_isQualifiedSlot_bare : ¬ IsQualifiedSlot [.identifier x] := by
  rintro ⟨_, _, h, _⟩
  cases h

theorem not_isQualifiedSlot_typed (h : IsType .parameter type) :
    ¬ IsQualifiedSlot (.identifier x :: type) := by
  rintro ⟨_, _, hslot, _⟩
  cases hslot
  exact not_isType_dot h

theorem ofTokens_typed (h : IsType .parameter type) :
    ParameterSlot.ofTokens (.identifier x :: type) = .typed x type := by
  cases h with
  | name => rfl
  | marked hm _ => cases hm <;> rfl
  | dotted => rfl

end

theorem isTyped_ofTokens_iff {slot : List Token} (h : IsParameterSlot slot) :
    (ParameterSlot.ofTokens slot).isTyped = true ↔ IsTypedSlot slot := by
  cases h with
  | bare x => exact iff_of_false Bool.false_ne_true not_isTypedSlot_bare
  | typed x h => rw [ofTokens_typed h]; exact iff_of_true rfl ⟨x, _, rfl, h⟩
  | qualified x h => exact iff_of_false Bool.false_ne_true not_isTypedSlot_qualified

/-- What a slot without a name of its own writes is its whole text. -/
theorem ownType_ofTokens {slot : List Token} (h : IsParameterSlot slot) (hs : ¬ IsTypedSlot slot) :
    (ParameterSlot.ofTokens slot).ownType = Token.spell slot := by
  cases h with
  | bare x => simp [ParameterSlot.ofTokens, ParameterSlot.ofSlot, ParameterSlot.ownType,
      Token.spell, Token.text, String.join]
  | typed x h => exact absurd ⟨x, _, rfl, h⟩ hs
  | qualified x h => rfl

theorem any_isTyped_iff {slots : List (List Token)}
    (hslots : ∀ slot ∈ slots, IsParameterSlot slot) :
    (slots.map ParameterSlot.ofTokens).any (·.isTyped) = true ↔
      ∃ slot ∈ slots, IsTypedSlot slot := by
  rw [List.any_map, List.any_eq_true]
  refine exists_congr fun slot => and_congr_right fun hslot => ?_
  exact isTyped_ofTokens_iff (hslots slot hslot)

theorem resolveParameters_of_typed {slots : List (List Token)}
    (hslots : ∀ slot ∈ slots, IsParameterSlot slot) (htyped : ∃ slot ∈ slots, IsTypedSlot slot) :
    resolveParameters (slots.map ParameterSlot.ofTokens) =
      groupParameters [] (slots.map ParameterSlot.ofTokens) := by
  rw [resolveParameters, if_pos ((any_isTyped_iff hslots).mpr htyped)]

/-- A list without a typed slot is one of types. -/
theorem resolveParameters_of_untyped {slots : List (List Token)}
    (hslots : ∀ slot ∈ slots, IsParameterSlot slot)
    (huntyped : ¬ ∃ slot ∈ slots, IsTypedSlot slot) :
    resolveParameters (slots.map ParameterSlot.ofTokens) =
      slots.map fun slot => ⟨"", Token.spell slot⟩ := by
  rw [resolveParameters, if_neg (mt (any_isTyped_iff hslots).mp huntyped), List.map_map]
  refine List.map_congr_left fun slot hslot => ?_
  rw [Function.comp_apply, ownType_ofTokens (hslots slot hslot) fun h => huntyped ⟨slot, hslot, h⟩]

/-! ## The parameter of a slot -/

/-- The parameter that a slot declares, in a list that gives names to its parameters or in one that
does not. -/
inductive Declares (named : Prop) : List Token → Parameter → Prop
  | bare {x type : String} : named → Declares named [.identifier x] ⟨x, type⟩
  | typed {x type : String} {ts : List Token} : named → IsType .parameter ts →
      Declares named (.identifier x :: ts) ⟨x, type⟩
  | qualified {x : String} {ts : List Token} : named → IsType .parameter ts →
      Declares named (.identifier x :: .dot :: ts) ⟨"", Token.spell (.identifier x :: .dot :: ts)⟩
  | unnamed {slot : List Token} : ¬ named → Declares named slot ⟨"", Token.spell slot⟩

/-- Every slot declares the parameter at its own index. -/
def InOrder (slots : List (List Token)) (parameters : List Parameter) : Prop :=
  List.Forall₂ (Declares (∃ slot ∈ slots, IsTypedSlot slot)) slots parameters

/-- The type of a package comes before the next slot with a name and a type. -/
def QualifiedNext (slots : List (List Token)) : Prop :=
  ∃ between slot after, slots = between ++ slot :: after ∧ IsQualifiedSlot slot ∧
    ∀ s ∈ between, ¬ IsTypedSlot s

/-- A name without a type is followed by the type of a package, with no slot that has a name and a
type in between. -/
def Overtakes (slots : List (List Token)) : Prop :=
  ∃ before x after, slots = before ++ [.identifier x] :: after ∧ QualifiedNext after

/-- The list gives names to its parameters, and one of the names is overtaken. -/
def NameOvertaken (slots : List (List Token)) : Prop :=
  (∃ slot ∈ slots, IsTypedSlot slot) ∧ Overtakes slots

theorem qualifiedNext_nil : ¬ QualifiedNext [] := by
  rintro ⟨between, slot, after, h, _⟩
  simp at h

theorem qualifiedNext_cons_iff {slot : List Token} {slots : List (List Token)} :
    QualifiedNext (slot :: slots) ↔
      IsQualifiedSlot slot ∨ ¬ IsTypedSlot slot ∧ QualifiedNext slots := by
  constructor
  · rintro ⟨between, q, after, h, hq, hbetween⟩
    cases between with
    | nil =>
        cases h
        exact .inl hq
    | cons s between =>
        cases h
        obtain ⟨hs, hbetween⟩ := List.forall_mem_cons.mp hbetween
        exact .inr ⟨hs, between, q, after, rfl, hq, hbetween⟩
  · rintro (hslot | ⟨hslot, between, q, after, rfl, hq, hbetween⟩)
    · exact ⟨[], slot, slots, rfl, hslot, by simp⟩
    · exact ⟨slot :: between, q, after, rfl, hq, List.forall_mem_cons.mpr ⟨hslot, hbetween⟩⟩

theorem overtakes_nil : ¬ Overtakes [] := by
  rintro ⟨before, x, after, h, _⟩
  simp at h

theorem overtakes_cons_iff {slot : List Token} {slots : List (List Token)} :
    Overtakes (slot :: slots) ↔
      (∃ x, slot = [.identifier x]) ∧ QualifiedNext slots ∨ Overtakes slots := by
  constructor
  · rintro ⟨before, x, after, h, hnext⟩
    cases before with
    | nil =>
        cases h
        exact .inl ⟨⟨x, rfl⟩, hnext⟩
    | cons s before =>
        cases h
        exact .inr ⟨before, x, after, rfl, hnext⟩
  · rintro (⟨⟨x, rfl⟩, hnext⟩ | ⟨before, x, after, rfl, hnext⟩)
    · exact ⟨[], x, slots, rfl, hnext⟩
    · exact ⟨slot :: before, x, after, rfl, hnext⟩

/-- A name without a type, in a list that gives names, declares a parameter with that name. -/
theorem Declares.name_eq {x : String} {p : Parameter} (h : Declares True [.identifier x] p) :
    p.name = x := by
  cases h with
  | bare => rfl
  | typed => rfl
  | unnamed hn => exact absurd trivial hn

/-! ## Names that wait -/

/-- Behind parameters that are declared in order, what is declared in order is the rest. -/
theorem forall₂_append_iff_of_left {α β : Type} {R : α → β → Prop} {as as' : List α}
    {bs bs' : List β} (h : List.Forall₂ R as bs) :
    List.Forall₂ R (as ++ as') (bs ++ bs') ↔ List.Forall₂ R as' bs' := by
  induction h with
  | nil => rfl
  | cons hab _ ih => simp [hab, ih]

/-- The slots of names without a type. -/
def bareSlots (names : List String) : List (List Token) := names.map ([.identifier ·])

theorem declares_bareSlots (type : String) (names : List String) :
    List.Forall₂ (Declares True) (bareSlots names) (names.map (⟨·, type⟩)) := by
  rw [bareSlots, List.forall₂_map_left_iff, List.forall₂_map_right_iff, List.forall₂_same]
  exact fun _ _ => .bare trivial

/-- The next slot with a name and a type is in order with the names that wait for it. -/
theorem declares_typedGroup {x : String} {type : List Token} (htype : IsType .parameter type)
    (waiting : List String) :
    List.Forall₂ (Declares True) (bareSlots waiting ++ [.identifier x :: type])
      ((waiting ++ [x]).map (⟨·, Token.spell type⟩)) := by
  rw [List.map_append]
  exact List.rel_append (declares_bareSlots _ waiting) (.cons (.typed trivial htype) .nil)

/-- **Names wait in order unless they are overtaken.**  The parameters are those of the names that
wait and of the slots behind them exactly if no type of a package comes while a name waits. -/
theorem declares_groupParameters_iff {waiting : List String} {slots : List (List Token)}
    (hslots : ∀ slot ∈ slots, IsParameterSlot slot) (hwaiting : ∀ x ∈ waiting, x ≠ "")
    (hnames : ∀ x, [.identifier x] ∈ slots → x ≠ "") :
    List.Forall₂ (Declares True) (bareSlots waiting ++ slots)
        (groupParameters waiting (slots.map ParameterSlot.ofTokens)) ↔
      ¬ (waiting ≠ [] ∧ QualifiedNext slots ∨ Overtakes slots) := by
  induction slots generalizing waiting with
  | nil =>
      rw [List.append_nil]
      refine iff_of_true (declares_bareSlots "" waiting) ?_
      rintro (⟨_, hnext⟩ | hovertakes)
      · exact qualifiedNext_nil hnext
      · exact overtakes_nil hovertakes
  | cons slot slots ih =>
      obtain ⟨hslot, hbehind⟩ := List.forall_mem_cons.mp hslots
      have hnames' : ∀ x, [.identifier x] ∈ slots → x ≠ "" := fun x hx =>
        hnames x (List.mem_cons_of_mem slot hx)
      rw [qualifiedNext_cons_iff, overtakes_cons_iff, List.map_cons]
      cases hslot with
      | bare x =>
          have hx : ∀ y ∈ waiting ++ [x], y ≠ "" :=
            List.forall_mem_append.mpr ⟨hwaiting, by simpa using hnames x List.mem_cons_self⟩
          have hih := ih hbehind hx hnames'
          rw [bareSlots, List.map_append, List.append_assoc] at hih
          refine hih.trans (not_congr ?_)
          have hwait : waiting ++ [x] ≠ [] := by simp
          have hbare : ∃ y, [Token.identifier x] = [.identifier y] := ⟨x, rfl⟩
          have htyped : ¬ IsTypedSlot [.identifier x] := not_isTypedSlot_bare
          have hqualified : ¬ IsQualifiedSlot [.identifier x] := not_isQualifiedSlot_bare
          tauto
      | @typed x type htype =>
          have hih := @ih [] hbehind (by simp) hnames'
          rw [ofTokens_typed htype, groupParameters, ← List.singleton_append, ← List.append_assoc,
            forall₂_append_iff_of_left (declares_typedGroup htype waiting)]
          refine hih.trans (not_congr ?_)
          have htyped : IsTypedSlot (.identifier x :: type) := ⟨x, type, rfl, htype⟩
          have hqualified := not_isQualifiedSlot_typed (x := x) htype
          have hbare : ¬ ∃ y, Token.identifier x :: type = [.identifier y] := by
            rintro ⟨y, h⟩
            exact not_isTypedSlot_bare (h ▸ htyped)
          tauto
      | @qualified x type htype =>
          have hqualified : IsQualifiedSlot (.identifier x :: .dot :: type) := ⟨x, type, rfl, htype⟩
          cases waiting with
          | nil =>
              have hih := @ih [] hbehind (by simp) hnames'
              have hbare : ¬ ∃ y, Token.identifier x :: .dot :: type = [.identifier y] := by simp
              refine (List.forall₂_cons.trans ?_).trans (hih.trans (not_congr ?_))
              · exact and_iff_right (.qualified trivial htype)
              · tauto
          | cons w ws =>
              -- the parameter of this slot stands where that of the first name should
              refine iff_of_false (fun h => ?_) (by tauto)
              cases h with
              | cons hw _ => exact hwaiting w List.mem_cons_self hw.name_eq.symm

/-! ## Slots of a text -/

theorem CommaList.forall_item {Item : List Token → Prop} {items : List (List Token)}
    {ts : List Token} (h : CommaList Item items ts) :
    ∀ item ∈ items, Item item ∧ ∀ t ∈ item, t ∈ ts := by
  induction h with
  | nil => simp
  | last h => simpa using h
  | @cons item items ts h _ ih =>
      refine List.forall_mem_cons.mpr ⟨⟨h, fun t ht => List.mem_append_left _ ht⟩, ?_⟩
      intro other hother
      obtain ⟨hitem, hmem⟩ := ih other hother
      exact ⟨hitem, fun t ht =>
        List.mem_append_right item (List.mem_cons_of_mem _ (hmem t ht))⟩

theorem IsHeader.forall_slot {o : Outline} {ts : List Token} (h : IsHeader o ts) :
    ∀ slot ∈ o.slots, IsParameterSlot slot ∧ ∀ t ∈ slot, t ∈ ts := by
  cases h with
  | mk x hstar hparams =>
      intro slot hslot
      obtain ⟨hitem, hmem⟩ := hparams.forall_item slot hslot
      exact ⟨hitem, fun t ht => by simp [hmem t ht]⟩

theorem IsSignature.forall_slot {o : Outline} {us : List Token} (h : IsSignature o us) :
    ∀ slot ∈ o.slots, IsParameterSlot slot ∧ ∀ t ∈ slot, t ∈ us := by
  intro slot hslot
  cases h with
  | parenthesized hheader hresults =>
      obtain ⟨hitem, hmem⟩ := hheader.forall_slot slot hslot
      exact ⟨hitem, fun t ht => by simp [hmem t ht]⟩
  | bare hheader htype he =>
      obtain ⟨hitem, hmem⟩ := hheader.forall_slot slot hslot
      exact ⟨hitem, fun t ht => by simp [hmem t ht]⟩

/-- No identifier of a text is empty. -/
theorem identifier_ne_empty {source x : String}
    (h : .identifier x ∈ (tokenize source).map (·.value)) : x ≠ "" :=
  (isName_of_mem_tokenize h).identifier.ne_empty

/-- **When parameters come in declaration order.**  A text that declares a method has the slots of
its parameters among the tokens that its signature takes.  Every slot declares the parameter at its
own index — a name the parameter of that name, the type of a package one without a name, and in a
list without names each slot one without a name and with its own text as type — exactly if no name
of the list is overtaken. -/
theorem parameters_in_order_iff {source : String} {m : Method}
    (h : parseSignature source = .ok m) :
    (∃ o, IsSignature o ((takenTokens (tokenize source)).map (·.value))) ∧
      ∀ o, IsSignature o ((takenTokens (tokenize source)).map (·.value)) →
        (InOrder o.slots m.parameters ↔ ¬ NameOvertaken o.slots) := by
  obtain ⟨o', _, hsignature⟩ := isSignature_takenTokens h
  refine ⟨⟨o', hsignature⟩, fun o ho => ?_⟩
  have hfront := (takenTokens_isPrefix (tokenize source)).map (·.value)
  obtain rfl : m = o.method :=
    Except.ok.inj (h.symm.trans (parseSignature_of_isSignature ho hfront))
  have hslots : ∀ slot ∈ o.slots, IsParameterSlot slot := fun slot hslot =>
    (ho.forall_slot slot hslot).1
  have hnames : ∀ x, [.identifier x] ∈ o.slots → x ≠ "" := fun x hx =>
    identifier_ne_empty (hfront.subset ((ho.forall_slot _ hx).2 _ List.mem_cons_self))
  show InOrder o.slots (resolveParameters _) ↔ _
  rw [InOrder, NameOvertaken]
  by_cases hnamed : ∃ slot ∈ o.slots, IsTypedSlot slot
  · have hgroup := @declares_groupParameters_iff [] o.slots hslots (by simp) hnames
    rw [resolveParameters_of_typed hslots hnamed, eq_true hnamed, true_and]
    refine hgroup.trans (not_congr ?_)
    simp
  · rw [resolveParameters_of_untyped hslots hnamed]
    refine iff_of_true ?_ fun hovertaken => hnamed hovertaken.1
    rw [List.forall₂_map_right_iff, List.forall₂_same]
    exact fun slot _ => .unnamed hnamed

/-- A name that is overtaken by the type of a package. -/
def overtakenA : String := "func (d *db) F(a, b.C, c int)"

/-- What its tokens say. -/
def outlineA : Outline where
  receiver := "db"
  name := "F"
  slots := [[.identifier "a"], [.identifier "b", .dot, .identifier "C"],
    [.identifier "c", .identifier "int"]]
  results := []

theorem isSignature_overtakenA :
    IsSignature outlineA ((tokenize overtakenA).map (·.value)) := by
  have hslots : CommaList IsParameterSlot outlineA.slots _ :=
    .cons (.bare "a") (.cons (.qualified "b" (.name "C")) (.last (.typed "c" (.name "int"))))
  have hheader : IsHeader outlineA _ := .mk "d" (.inr rfl) hslots
  rw [tokenize_values]
  exact .bare hheader .none (.inr rfl)

theorem parseSignature_overtakenA : parseSignature overtakenA =
    .ok ⟨"db", "F", [⟨"", "b.C"⟩, ⟨"a", "int"⟩, ⟨"c", "int"⟩], []⟩ :=
  parseSignature_of_isSignature isSignature_overtakenA List.prefix_rfl

theorem parameters_in_order_iff_overtakenA :
    parseSignature overtakenA =
        .ok ⟨"db", "F", [⟨"", "b.C"⟩, ⟨"a", "int"⟩, ⟨"c", "int"⟩], []⟩ ∧
      (∃ o, IsSignature o ((takenTokens (tokenize overtakenA)).map (·.value))) ∧
      ∀ o, IsSignature o ((takenTokens (tokenize overtakenA)).map (·.value)) →
        (InOrder o.slots [⟨"", "b.C"⟩, ⟨"a", "int"⟩, ⟨"c", "int"⟩] ↔ ¬ NameOvertaken o.slots) :=
  ⟨parseSignature_overtakenA, parameters_in_order_iff parseSignature_overtakenA⟩

/-- Parameters need not come in the order of their slots. -/
theorem not_parameters_in_order : ¬ ∀ (source : String) (m : Method) (o : Outline),
    parseSignature source = .ok m →
      IsSignature o ((takenTokens (tokenize source)).map (·.value)) →
        InOrder o.slots m.parameters := by
  intro h
  have htaken : (takenTokens (tokenize overtakenA)).map (·.value) =
      (tokenize overtakenA).map (·.value) :=
    isSignature_overtakenA.takenTokens_eq List.prefix_rfl
  have horder := h _ _ outlineA parseSignature_overtakenA (htaken ▸ isSignature_overtakenA)
  have hnamed : ∃ slot ∈ outlineA.slots, IsTypedSlot slot :=
    ⟨_, by simp [outlineA], "c", [.identifier "int"], rfl, .name "int"⟩
  rw [InOrder, eq_true hnamed] at horder
  cases horder with
  | cons ha _ => exact absurd ha.name_eq (by decide)

end MethodSkeleton
