/-
# `MethodSkeleton.Proofs.Signature.Grouping` — which type a name in a parameter list gets

In a list in which some slot has both a name and a type, a name takes the type of the nearest such
slot, at it or behind it.  The reader collects names until a type comes; here the same parameters
are found by looking ahead from every slot (`grouped_parameters`).  Slots that write the type of a
package come between without touching the names that wait, so the named parameters and the unnamed
ones are each in the order of their slots.

The induction goes over the slots, with the names that wait in front: those get the type that is
ahead of all the slots (`filter_groupParameters`).
-/
import MethodSkeleton.Proofs.Signature.DeclarationOrder

namespace MethodSkeleton

/-! ## Looking ahead -/

/-- The name that a slot is or begins with, unless it is that of a package. -/
def declaredName? : List Token → Option String
  | .identifier _ :: .dot :: _ => none
  | .identifier x :: _ => some x
  | _ => none

/-- The text of the type behind a slot's name. -/
def declaredType? : List Token → Option String
  | [.identifier _] => none
  | .identifier _ :: .dot :: _ => none
  | .identifier _ :: type => some (Token.spell type)
  | _ => none

/-- The text of the nearest type behind a name; empty if there is none. -/
def typeAhead (slots : List (List Token)) : String := (slots.findSome? declaredType?).getD ""

/-- A parameter for every name, with the type ahead of it. -/
def namedParameters (slots : List (List Token)) : List Parameter :=
  slots.tails.filterMap fun ahead =>
    (ahead.head?.bind declaredName?).map fun x => ⟨x, typeAhead ahead⟩

/-- A parameter for every slot without a name of its own, with the whole slot as type. -/
def packageParameters (slots : List (List Token)) : List Parameter :=
  (slots.filter fun slot => declaredName? slot = none).map fun slot => ⟨"", Token.spell slot⟩

theorem namedParameters_cons (slot : List Token) (slots : List (List Token)) :
    namedParameters (slot :: slots) =
      ((declaredName? slot).map (⟨·, typeAhead (slot :: slots)⟩)).toList ++
        namedParameters slots := by
  rw [namedParameters, List.tails, List.filterMap_cons]
  simp only [List.head?_cons, Option.bind_some]
  cases declaredName? slot <;> rfl

section
variable {x : String} {type : List Token}

theorem declaredName?_typed (h : IsType .parameter type) :
    declaredName? (.identifier x :: type) = some x := by
  cases h with
  | name => rfl
  | marked hm _ => cases hm <;> rfl
  | dotted => rfl

theorem declaredType?_typed (h : IsType .parameter type) :
    declaredType? (.identifier x :: type) = some (Token.spell type) := by
  cases h with
  | name => rfl
  | marked hm _ => cases hm <;> rfl
  | dotted => rfl

end

theorem isSome_declaredType?_iff {slot : List Token} (h : IsParameterSlot slot) :
    (declaredType? slot).isSome = true ↔ IsTypedSlot slot := by
  cases h with
  | bare x => exact iff_of_false Bool.false_ne_true not_isTypedSlot_bare
  | typed x h => rw [declaredType?_typed h]; exact iff_of_true rfl ⟨x, _, rfl, h⟩
  | qualified x h => exact iff_of_false Bool.false_ne_true not_isTypedSlot_qualified

/-- Only a slot with a name and a type has the text of one. -/
theorem declaredType?_eq_some {slot : List Token} (h : IsParameterSlot slot) {text : String}
    (htext : declaredType? slot = some text) :
    ∃ x type, slot = .identifier x :: type ∧ IsType .parameter type ∧ text = Token.spell type := by
  cases h with
  | bare x => cases htext
  | typed x h =>
      rw [declaredType?_typed h] at htext
      exact ⟨x, _, rfl, h, (Option.some.inj htext).symm⟩
  | qualified x h => cases htext

theorem declaredName?_eq_none {slot : List Token} (h : IsParameterSlot slot)
    (hname : declaredName? slot = none) : IsQualifiedSlot slot := by
  cases h with
  | bare x => cases hname
  | typed x h =>
      rw [declaredName?_typed h] at hname
      cases hname
  | qualified x h => exact ⟨x, _, rfl, h⟩

/-- A slot with a name but without a type of its own is that name. -/
theorem eq_bare_of_declaredName? {slot : List Token} (h : IsParameterSlot slot)
    (huntyped : ¬ IsTypedSlot slot) {x : String} (hname : declaredName? slot = some x) :
    slot = [.identifier x] := by
  cases h with
  | bare y =>
      cases hname
      rfl
  | typed y h => exact absurd ⟨y, _, rfl, h⟩ huntyped
  | qualified y h => cases hname

/-! ## Names that wait -/

/-- No name among the tokens is empty. -/
def NamesGiven (ts : List Token) : Prop := ∀ x, .identifier x ∈ ts → x ≠ ""

theorem filter_named_map {names : List String} (type : String) (hnames : ∀ x ∈ names, x ≠ "") :
    (names.map (Parameter.mk · type)).filter (·.name ≠ "") = names.map (⟨·, type⟩) ∧
      (names.map (Parameter.mk · type)).filter (·.name = "") = [] := by
  refine ⟨List.filter_eq_self.mpr fun p hp => ?_, List.filter_eq_nil_iff.mpr fun p hp => ?_⟩
  · obtain ⟨x, hx, rfl⟩ := List.mem_map.mp hp
    exact decide_eq_true (hnames x hx)
  · obtain ⟨x, hx, rfl⟩ := List.mem_map.mp hp
    exact decide_eq_true_iff.not.mpr (hnames x hx)

/-- **The names that wait get the type ahead**, and a slot of a package comes in between whatever
names wait. -/
theorem filter_groupParameters {waiting : List String} {slots : List (List Token)}
    (hslots : ∀ slot ∈ slots, IsParameterSlot slot ∧ NamesGiven slot)
    (hwaiting : ∀ x ∈ waiting, x ≠ "") :
    (groupParameters waiting (slots.map ParameterSlot.ofTokens)).filter (·.name ≠ "") =
        waiting.map (⟨·, typeAhead slots⟩) ++ namedParameters slots ∧
      (groupParameters waiting (slots.map ParameterSlot.ofTokens)).filter (·.name = "") =
        packageParameters slots := by
  induction slots generalizing waiting with
  | nil =>
      obtain ⟨hnamed, hunnamed⟩ := filter_named_map "" hwaiting
      exact ⟨hnamed.trans (List.append_nil _).symm, hunnamed⟩
  | cons slot slots ih =>
      obtain ⟨⟨hslot, hnames⟩, hbehind⟩ := List.forall_mem_cons.mp hslots
      rw [List.map_cons, namedParameters_cons]
      cases hslot with
      | bare x =>
          have hx : ∀ y ∈ waiting ++ [x], y ≠ "" :=
            List.forall_mem_append.mpr ⟨hwaiting, by simpa using hnames x List.mem_cons_self⟩
          obtain ⟨hnamed, hunnamed⟩ := ih hbehind hx
          refine ⟨hnamed.trans ?_, hunnamed⟩
          rw [List.map_append, List.append_assoc]
          rfl
      | @typed x type htype =>
          have hx : ∀ y ∈ waiting ++ [x], y ≠ "" :=
            List.forall_mem_append.mpr ⟨hwaiting, by simpa using hnames x List.mem_cons_self⟩
          have hahead : typeAhead ((.identifier x :: type) :: slots) = Token.spell type := by
            rw [typeAhead, List.findSome?_cons, declaredType?_typed htype]
            rfl
          have hname := declaredName?_typed (x := x) htype
          obtain ⟨hgroup, hgroup'⟩ := filter_named_map (Token.spell type) hx
          obtain ⟨hnamed, hunnamed⟩ := ih hbehind (List.forall_mem_nil _)
          rw [ofTokens_typed htype, groupParameters, List.filter_append, List.filter_append, hgroup,
            hgroup', hnamed, hunnamed, hahead, hname, List.map_append, List.append_assoc]
          refine ⟨rfl, ?_⟩
          rw [packageParameters, packageParameters, List.filter_cons_of_neg (by simp [hname])]
          rfl
      | @qualified x type htype =>
          obtain ⟨hnamed, hunnamed⟩ := ih hbehind hwaiting
          exact ⟨hnamed, congrArg (_ :: ·) hunnamed⟩

/-! ## Texts of slots -/

theorem spell_ne_empty {t : Token} {ts : List Token} (h : t.text ≠ "") :
    Token.spell (t :: ts) ≠ "" := by
  rw [Token.spell, List.map_cons, String.join_cons, ne_eq, String.append_eq_empty_iff]
  exact fun hboth => h hboth.1

theorem IsMark.text_ne_empty {context : SlotContext} {t : Token} (h : IsMark context t) :
    t.text ≠ "" := by
  cases h <;> decide

theorem IsType.spell_ne_empty {context : SlotContext} {type : List Token} (h : IsType context type)
    (hnames : NamesGiven type) : Token.spell type ≠ "" := by
  cases h with
  | name x => exact MethodSkeleton.spell_ne_empty (hnames x List.mem_cons_self)
  | marked hm _ => exact MethodSkeleton.spell_ne_empty hm.text_ne_empty
  | dotted x _ => exact MethodSkeleton.spell_ne_empty (hnames x List.mem_cons_self)

theorem IsParameterSlot.declaredType?_ne_empty {slot : List Token} (h : IsParameterSlot slot)
    (hnames : NamesGiven slot) {type : String} (htype : declaredType? slot = some type) :
    type ≠ "" := by
  obtain ⟨x, ts, rfl, hts, rfl⟩ := declaredType?_eq_some h htype
  exact hts.spell_ne_empty fun y hy => hnames y (List.mem_cons_of_mem _ hy)

theorem IsParameterSlot.spell_ne_empty {slot : List Token} (h : IsParameterSlot slot)
    (hnames : NamesGiven slot) : Token.spell slot ≠ "" := by
  cases h with
  | bare x => exact MethodSkeleton.spell_ne_empty (hnames x List.mem_cons_self)
  | typed x _ => exact MethodSkeleton.spell_ne_empty (hnames x List.mem_cons_self)
  | qualified x _ => exact MethodSkeleton.spell_ne_empty (hnames x List.mem_cons_self)

/-! ## Names behind the last type -/

section
variable {slots : List (List Token)}

theorem typeAhead_of_untyped (hslots : ∀ slot ∈ slots, IsParameterSlot slot)
    (huntyped : ∀ slot ∈ slots, ¬ IsTypedSlot slot) : typeAhead slots = "" := by
  have hnone : slots.findSome? declaredType? = none := by
    refine List.findSome?_eq_none_iff.mpr fun slot hslot => ?_
    rw [← Option.not_isSome_iff_eq_none, isSome_declaredType?_iff (hslots slot hslot)]
    exact huntyped slot hslot
  rw [typeAhead, hnone]
  rfl

theorem typeAhead_ne_empty (hslots : ∀ slot ∈ slots, IsParameterSlot slot ∧ NamesGiven slot)
    (htyped : ∃ slot ∈ slots, IsTypedSlot slot) : typeAhead slots ≠ "" := by
  obtain ⟨slot, hmem, htyped⟩ := htyped
  have hsome : (slots.findSome? declaredType?).isSome = true :=
    List.findSome?_isSome_iff.mpr
      ⟨slot, hmem, (isSome_declaredType?_iff (hslots slot hmem).1).mpr htyped⟩
  obtain ⟨type, htype⟩ := Option.isSome_iff_exists.mp hsome
  obtain ⟨other, hother, hdeclared⟩ := List.exists_of_findSome?_eq_some htype
  rw [typeAhead, htype]
  exact (hslots other hother).1.declaredType?_ne_empty (hslots other hother).2 hdeclared

theorem namedParameters_of_untyped (hslots : ∀ slot ∈ slots, IsParameterSlot slot)
    (huntyped : ∀ slot ∈ slots, ¬ IsTypedSlot slot) :
    namedParameters slots = (slots.filterMap declaredName?).map (⟨·, ""⟩) := by
  induction slots with
  | nil => rfl
  | cons slot slots ih =>
      rw [namedParameters_cons, typeAhead_of_untyped hslots huntyped, List.filterMap_cons,
        ih (List.forall_mem_cons.mp hslots).2 (List.forall_mem_cons.mp huntyped).2]
      cases declaredName? slot <;> rfl

theorem filter_untyped_namedParameters {before after : List (List Token)} {last : List Token}
    (hslots : ∀ slot ∈ before ++ last :: after, IsParameterSlot slot ∧ NamesGiven slot)
    (hlast : IsTypedSlot last) (hafter : ∀ slot ∈ after, ¬ IsTypedSlot slot) :
    (namedParameters (before ++ last :: after)).filter (·.type = "") =
      (after.filterMap declaredName?).map (⟨·, ""⟩) := by
  have hhead : ∀ (front : List (List Token)) (slot : List Token),
      typeAhead (slot :: front) ≠ "" →
      (namedParameters (slot :: front)).filter (·.type = "") =
        (namedParameters front).filter (·.type = "") := by
    intro front slot htype
    rw [namedParameters_cons, List.filter_append]
    cases declaredName? slot <;> simp [htype]
  induction before with
  | nil =>
      have hbehind := (List.forall_mem_cons.mp hslots).2
      rw [List.nil_append, hhead after last (typeAhead_ne_empty hslots ⟨last, by simp, hlast⟩),
        namedParameters_of_untyped (fun slot hslot => (hbehind slot hslot).1) hafter]
      refine List.filter_eq_self.mpr fun p hp => ?_
      obtain ⟨x, _, rfl⟩ := List.mem_map.mp hp
      rfl
  | cons slot before ih =>
      have htype := typeAhead_ne_empty hslots ⟨last, by simp, hlast⟩
      rw [List.cons_append, hhead (before ++ last :: after) slot htype]
      exact ih (List.forall_mem_cons.mp hslots).2

end

/-! ## Parameter lists -/

/-- The tokens `ts` are a parameter list with these slots, and then `rest`. -/
def IsParameterList (slots : List (List Token)) (ts rest : Tokens) : Prop :=
  ∃ us, CommaList IsParameterSlot slots us ∧ SplitsAs ts (.leftParen :: us ++ [.rightParen]) rest

theorem IsParameterList.namesGiven {slots : List (List Token)} {ts rest : Tokens}
    (h : IsParameterList slots ts rest) (hts : NamesGiven (ts.map (·.value))) :
    ∀ slot ∈ slots, IsParameterSlot slot ∧ NamesGiven slot := by
  obtain ⟨us, hlist, front, hfront, rfl⟩ := h
  intro slot hslot
  obtain ⟨hitem, hmem⟩ := hlist.forall_item slot hslot
  refine ⟨hitem, fun x hx => hts x ?_⟩
  simp [hfront, hmem _ hx]

/-- The names in a text are not empty. -/
theorem namesGiven_tokenize (source : String) : NamesGiven ((tokenize source).map (·.value)) :=
  fun _ => identifier_ne_empty

/-- **Which parameters a list declares.**  Wherever a list of parameters is read in which some slot
has both a name and a type: every slot gives one parameter; those with a name are, in order, the
names of the slots, each with the type of the nearest slot, at it or behind it, that has a name and
a type; those without a name are, in order, the slots that write the type of a package, with their
whole text.  The parameters without a type are the names behind the last slot that has a name and a
type, and all of them have a name. -/
theorem grouped_parameters {stop : Nat} {ts rest : Tokens} {parameters : List Parameter}
    (hts : NamesGiven (ts.map (·.value)))
    (h : readParameters stop ts = .ok (parameters, rest)) :
    (∃ slots, IsParameterList slots ts rest) ∧
      ∀ slots, IsParameterList slots ts rest → (∃ slot ∈ slots, IsTypedSlot slot) →
        parameters.length = slots.length ∧
        parameters.filter (·.name ≠ "") = namedParameters slots ∧
        parameters.filter (·.name = "") = packageParameters slots ∧
        (∀ before last after, slots = before ++ last :: after → IsTypedSlot last →
          (∀ slot ∈ after, ¬ IsTypedSlot slot) →
            parameters.filter (·.type = "") = (after.filterMap declaredName?).map (⟨·, ""⟩)) ∧
        ∀ p ∈ parameters, p.type = "" → p.name ≠ "" := by
  obtain ⟨items, us, hitems, _, hus⟩ := readParameters_ok_iff.mp h
  refine ⟨⟨items, us, hitems, hus⟩, fun slots hslots htyped => ?_⟩
  have hgiven := hslots.namesGiven hts
  obtain ⟨us', hlist, hsplit⟩ := hslots
  obtain rfl : parameters = resolveParameters (slots.map ParameterSlot.ofTokens) := by
    have hread : readParameters stop ts = .ok (_, rest) :=
      readParameters_ok_iff.mpr ⟨slots, us', hlist, rfl, hsplit⟩
    exact (Prod.mk.inj (Except.ok.inj (h.symm.trans hread))).1
  have hlength := length_resolveParameters (slots.map ParameterSlot.ofTokens)
  rw [List.length_map] at hlength
  rw [resolveParameters_of_typed (fun slot hslot => (hgiven slot hslot).1) htyped] at hlength ⊢
  obtain ⟨hnamed, hunnamed⟩ := filter_groupParameters hgiven (List.forall_mem_nil _)
  rw [List.map_nil, List.nil_append] at hnamed
  have hname : ∀ p ∈ groupParameters [] (slots.map ParameterSlot.ofTokens),
      p.type = "" → p.name ≠ "" := by
    intro p hp htype hempty
    have hmem : p ∈ packageParameters slots :=
      hunnamed ▸ List.mem_filter.mpr ⟨hp, decide_eq_true hempty⟩
    obtain ⟨slot, hslot, rfl⟩ := List.mem_map.mp hmem
    have hslot := List.mem_of_mem_filter hslot
    exact (hgiven slot hslot).1.spell_ne_empty (hgiven slot hslot).2 htype
  refine ⟨hlength, hnamed, hunnamed, ?_, hname⟩
  rintro before last after rfl hlast hafter
  rw [← filter_untyped_namedParameters hgiven hlast hafter, ← hnamed, List.filter_filter]
  refine List.filter_congr fun p hp => ?_
  rw [Bool.eq_iff_iff, Bool.and_eq_true, decide_eq_true_iff, decide_eq_true_iff]
  exact ⟨fun htype => ⟨htype, hname p hp htype⟩, And.left⟩

/-- The text of a parameter list. -/
def groupedNames : String := "(a, b.C, c *int, d, e.F)"

/-- Its slots. -/
def groupedSlots : List (List Token) :=
  [[.identifier "a"], [.identifier "b", .dot, .identifier "C"],
    [.identifier "c", .star, .identifier "int"], [.identifier "d"],
    [.identifier "e", .dot, .identifier "F"]]

/-- What they declare. -/
def groupedParameters : List Parameter :=
  [⟨"", "b.C"⟩, ⟨"a", "*int"⟩, ⟨"c", "*int"⟩, ⟨"", "e.F"⟩, ⟨"d", ""⟩]

theorem isParameterList_groupedNames : ∃ rest,
    IsParameterList groupedSlots (tokenize groupedNames) rest := by
  have hlist : CommaList IsParameterSlot groupedSlots _ :=
    .cons (.bare "a") <| .cons (.qualified "b" (.name "C")) <|
    .cons (.typed "c" (.marked .star (.name "int"))) <| .cons (.bare "d") <|
    .last (.qualified "e" (.name "F"))
  refine ⟨(tokenize groupedNames).drop 17, _, hlist, (tokenize groupedNames).take 17, by decide, ?_⟩
  rw [List.take_append_drop]

/-- At a list in which a name is overtaken, and another has no type behind it. -/
theorem grouped_parameters_groupedNames : ∃ rest,
    readParameters 0 (tokenize groupedNames) = .ok (groupedParameters, rest) ∧
      groupedParameters.length = groupedSlots.length ∧
      groupedParameters.filter (·.name ≠ "") = namedParameters groupedSlots ∧
      groupedParameters.filter (·.name = "") = packageParameters groupedSlots ∧
      groupedParameters.filter (·.type = "") = [⟨"d", ""⟩] := by
  obtain ⟨rest, hlist⟩ := isParameterList_groupedNames
  have hread : readParameters 0 (tokenize groupedNames) = .ok (groupedParameters, rest) := by
    obtain ⟨us, hslots, hsplit⟩ := hlist
    exact readParameters_ok_iff.mpr ⟨groupedSlots, us, hslots, by decide, hsplit⟩
  have htyped : IsTypedSlot [.identifier "c", .star, .identifier "int"] :=
    ⟨"c", _, rfl, .marked .star (.name "int")⟩
  have huntyped : ∀ slot ∈ [[.identifier "d"], [.identifier "e", .dot, .identifier "F"]],
      ¬ IsTypedSlot slot := by
    simp
  obtain ⟨_, hall⟩ := grouped_parameters (namesGiven_tokenize _) hread
  obtain ⟨hlength, hnamed, hunnamed, hlast, _⟩ :=
    hall groupedSlots hlist ⟨_, by simp [groupedSlots], htyped⟩
  exact ⟨rest, hread, hlength, hnamed, hunnamed,
    hlast (groupedSlots.take 2) _ _ rfl htyped huntyped⟩

end MethodSkeleton
