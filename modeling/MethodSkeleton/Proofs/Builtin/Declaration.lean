/-
# `MethodSkeleton.Proofs.Builtin.Declaration` — methods that can be declared

A method may hold any texts.  Here are those whose texts are what a signature writes
(`Method.IsPlain`): names, and types that are pointer and slice marks in front of a name that
may be qualified (`PlainType`).  Which words a type may be made of is a parameter: the layout
takes any word for one, the grammar none that is reserved.

A declaration names every parameter, so what is declared is not the method but the method with
its unnamed parameters called by their index (`Method.named`).  `Declaration` holds its parts
with the types as trees, and every plain method has one (`Method.IsPlain.exists_declaration`).
-/
import Mathlib.Data.List.Chain
import MethodSkeleton.Proofs.Builtin.Texts
import MethodSkeleton.Proofs.Source.Words

namespace MethodSkeleton

/-! ## Types -/

/-- The type of a result: marks in front of words with points between them. -/
inductive PlainType
  | words (first : String) (more : List String)
  | pointer (t : PlainType)
  | slice (t : PlainType)
deriving DecidableEq, Repr

namespace PlainType

def text : PlainType → String
  | words first more => first ++ String.join (more.map ("." ++ ·))
  | pointer t => "*" ++ t.text
  | slice t => "[]" ++ t.text

/-- The words of the type are such words. -/
def Over (IsWord : String → Prop) : PlainType → Prop
  | words first more => IsWord first ∧ ∀ w ∈ more, IsWord w
  | pointer t => t.Over IsWord
  | slice t => t.Over IsWord

theorem Over.mono {P Q : String → Prop} (hpq : ∀ w, P w → Q w) {t : PlainType} (h : t.Over P) :
    t.Over Q := by
  induction t with
  | words first more => exact ⟨hpq first h.1, fun w hw => hpq w (h.2 w hw)⟩
  | pointer t ih => exact ih h
  | slice t ih => exact ih h

end PlainType

/-- The type of a parameter, which may be variadic. -/
structure ParameterType where
  spread : Bool
  type : PlainType
deriving DecidableEq, Repr

namespace ParameterType

def text (t : ParameterType) : String := if t.spread then "..." ++ t.type.text else t.type.text

def Over (IsWord : String → Prop) (t : ParameterType) : Prop := t.type.Over IsWord

/-- The type of a field that holds what is passed. -/
def held (t : ParameterType) : PlainType := if t.spread then .slice t.type else t.type

theorem over_held {IsWord : String → Prop} {t : ParameterType} (h : t.Over IsWord) :
    t.held.Over IsWord := by
  rw [held]
  split <;> exact h

end ParameterType

/-! ### Points -/

/-- No two points stand next to each other. -/
def SinglePoints (cs : List Char) : Prop := cs.IsChain fun c d => ¬ (c = '.' ∧ d = '.')

theorem SinglePoints.of_forall {cs : List Char} (h : ∀ c ∈ cs, c ≠ '.') : SinglePoints cs := by
  refine List.Pairwise.isChain ?_
  induction cs with
  | nil => exact .nil
  | cons c cs ih =>
      obtain ⟨hc, hcs⟩ := List.forall_mem_cons.mp h
      exact .cons (fun d _ => fun ⟨hpoint, _⟩ => hc hpoint) (ih hcs)

theorem IsIdentifier.ne_point {s : String} (h : IsIdentifier s) : ∀ c ∈ s.toList, c ≠ '.' := by
  rintro c hc rfl
  have hpart := h.forall_part '.' hc
  exact absurd hpart (by decide)

theorem occursIn_ellipsis_of_singlePoints {cs : List Char} (h : SinglePoints cs) :
    occursIn ['.', '.', '.'] cs = false := by
  induction cs with
  | nil => rfl
  | cons c cs ih =>
      rw [occursIn, ih (List.IsChain.of_cons h), Bool.or_false, ← Bool.not_eq_true,
        List.isPrefixOf_iff_prefix]
      rintro ⟨rest, hrest⟩
      rw [← hrest] at h
      exact (List.isChain_cons_cons.mp h).1 ⟨rfl, rfl⟩

/-- What does not hold the pattern is not cut. -/
theorem splitAfter_of_not_occursIn {pattern cs : List Char} (h : occursIn pattern cs = false) :
    splitAfter pattern 0 cs = [cs] := by
  induction cs with
  | nil => rfl
  | cons c cs ih =>
      obtain ⟨hstarts, hrest⟩ := Bool.or_eq_false_iff.mp h
      rw [splitAfter, if_neg (by simp [hstarts]), ih hrest]

namespace PlainType

/-- Words with points between them. -/
theorem singlePoints_words {first : String} {more : List String} (hfirst : IsIdentifier first)
    (hmore : ∀ w ∈ more, IsIdentifier w) :
    SinglePoints (first.toList ++ more.flatMap fun w => '.' :: w.toList) := by
  induction more generalizing first with
  | nil => simpa using SinglePoints.of_forall hfirst.ne_point
  | cons w more ih =>
      obtain ⟨hw, hmore⟩ := List.forall_mem_cons.mp hmore
      have hrest := ih hw hmore
      refine List.IsChain.append (SinglePoints.of_forall hfirst.ne_point) ?_ ?_
      · obtain ⟨c, tail, hcs, _⟩ := isIdentifier_iff.mp hw
        rw [List.flatMap_cons, List.cons_append]
        rw [hcs] at hrest ⊢
        refine List.isChain_cons_cons.mpr ⟨?_, hrest⟩
        rintro ⟨_, hc⟩
        exact hw.ne_point c (by simp [hcs]) hc
      · rintro c hc d _ ⟨hpoint, _⟩
        exact hfirst.ne_point c (List.mem_of_mem_getLast? hc) hpoint

variable {t : PlainType}

theorem toList_text_words (first : String) (more : List String) :
    (words first more).text.toList = first.toList ++ more.flatMap fun w => '.' :: w.toList := by
  simp [text, List.flatMap_map]

theorem singlePoints (h : t.Over IsIdentifier) : SinglePoints t.text.toList := by
  induction t with
  | words first more =>
      rw [toList_text_words]
      exact singlePoints_words h.1 h.2
  | pointer t ih =>
      rw [text, String.toList_append]
      refine List.IsChain.append (.singleton _) (ih h) ?_
      rintro c hc d _ ⟨hpoint, _⟩
      cases hc
      cases hpoint
  | slice t ih =>
      rw [text, String.toList_append]
      refine List.IsChain.append (by decide) (ih h) ?_
      rintro c hc d _ ⟨hpoint, _⟩
      cases hc
      cases hpoint

theorem splitAfter_text (h : t.Over IsIdentifier) :
    splitAfter ['.', '.', '.'] 0 t.text.toList = [t.text.toList] :=
  splitAfter_of_not_occursIn (occursIn_ellipsis_of_singlePoints (singlePoints h))

end PlainType

namespace ParameterType

variable {t : ParameterType}

/-- A type holds an ellipsis only if it is variadic. -/
theorem containsText_ellipsis (h : t.Over IsIdentifier) : containsText t.text "..." = t.spread := by
  have hnone : occursIn ['.', '.', '.'] t.type.text.toList = false :=
    occursIn_ellipsis_of_singlePoints (PlainType.singlePoints h)
  rw [text]
  cases ht : t.spread with
  | false => exact hnone
  | true =>
      rw [if_pos rfl, containsText, String.toList_append]
      exact rfl

/-- Only the ellipsis of a variadic type is replaced. -/
theorem replaceText_ellipsis (h : t.Over IsIdentifier) :
    replaceText "..." "[]" t.text = t.held.text := by
  have hparts : splitAfter ['.', '.', '.'] 0 t.type.text.toList = [t.type.text.toList] :=
    PlainType.splitAfter_text h
  rw [text, held]
  refine String.toList_inj.mp ?_
  rw [replaceText, String.toList_ofList]
  cases ht : t.spread with
  | false =>
      show _ = t.type.text.toList
      show List.intercalate _ (splitAfter ['.', '.', '.'] 0 t.type.text.toList) = _
      rw [hparts]
      simp
  | true =>
      show _ = ("[]" ++ t.type.text).toList
      rw [if_pos rfl, String.toList_append, String.toList_append]
      show List.intercalate _ ([] :: splitAfter ['.', '.', '.'] 0 t.type.text.toList) = _
      rw [hparts]
      simp [List.intercalate]

end ParameterType

/-! ## Methods -/

namespace Method

/-- The texts of the method are what a signature writes; the types are made of such words. -/
structure IsPlain (IsWord : String → Prop) (m : Method) : Prop where
  receiver : IsName m.receiver
  name : IsName m.name
  parameters : ∀ p ∈ m.parameters, (p.name = "" ∨ IsName p.name) ∧
    ∃ t : ParameterType, t.Over IsWord ∧ t.text = p.type
  results : ∀ r ∈ m.results, ∃ t : PlainType, t.Over IsWord ∧ t.text = r

/-- The method with a name for every parameter. -/
def named (m : Method) : Method :=
  { m with parameters := m.parameters.mapIdx fun i p => ⟨p.nameAt i, p.type⟩ }

end Method

/-- A parameter that is declared. -/
structure NamedParameter where
  name : String
  type : ParameterType
deriving DecidableEq, Repr

def NamedParameter.parameter (p : NamedParameter) : Parameter := ⟨p.name, p.type.text⟩

/-- The parts of a declaration. -/
structure Declaration where
  receiver : String
  name : String
  parameters : List NamedParameter
  results : List PlainType
deriving DecidableEq, Repr

namespace Declaration

/-- The method that is declared. -/
def method (d : Declaration) : Method where
  receiver := d.receiver
  name := d.name
  parameters := d.parameters.map NamedParameter.parameter
  results := d.results.map PlainType.text

/-- The names are names and the types are made of such words. -/
structure Over (IsWord : String → Prop) (d : Declaration) : Prop where
  receiver : IsName d.receiver
  name : IsName d.name
  parameterName : ∀ p ∈ d.parameters, IsName p.name
  parameterType : ∀ p ∈ d.parameters, p.type.Over IsWord
  result : ∀ t ∈ d.results, t.Over IsWord

theorem Over.mono {P Q : String → Prop} (hpq : ∀ w, P w → Q w) {d : Declaration}
    (h : d.Over P) : d.Over Q where
  receiver := h.receiver
  name := h.name
  parameterName := h.parameterName
  parameterType p hp := PlainType.Over.mono hpq (h.parameterType p hp)
  result t ht := PlainType.Over.mono hpq (h.result t ht)

end Declaration

/-! ### From a method to a declaration -/

/-- Things that are images are so all together. -/
theorem exists_map_eq {α β : Type} {f : α → β} {P : α → Prop} {bs : List β}
    (h : ∀ b ∈ bs, ∃ a, P a ∧ f a = b) : ∃ as : List α, (∀ a ∈ as, P a) ∧ as.map f = bs := by
  induction bs with
  | nil => exact ⟨[], by simp, rfl⟩
  | cons b bs ih =>
      obtain ⟨⟨a, ha, hb⟩, hbs⟩ := List.forall_mem_cons.mp h
      obtain ⟨as, has, hmap⟩ := ih hbs
      exact ⟨a :: as, List.forall_mem_cons.mpr ⟨ha, has⟩, by rw [List.map_cons, hb, hmap]⟩

theorem isName_nameAt {p : Parameter} (h : p.name = "" ∨ IsName p.name) (i : Nat) :
    IsName (p.nameAt i) := by
  rw [Parameter.nameAt]
  rcases h with hempty | hname
  · rw [if_pos hempty]
    exact isName_indexed (by decide) i
  · rw [if_neg hname.identifier.ne_empty]
    exact hname

/-- Every plain method, with its parameters named, has a declaration. -/
theorem Method.IsPlain.exists_declaration {IsWord : String → Prop} {m : Method}
    (h : m.IsPlain IsWord) : ∃ d : Declaration, d.Over IsWord ∧ d.method = m.named := by
  have hparameters : ∀ q ∈ m.named.parameters,
      ∃ p : NamedParameter, (IsName p.name ∧ p.type.Over IsWord) ∧ p.parameter = q := by
    intro q hq
    obtain ⟨i, hi, rfl⟩ := List.mem_mapIdx.mp hq
    obtain ⟨hname, t, ht, htype⟩ := h.parameters _ (List.getElem_mem hi)
    exact ⟨⟨_, t⟩, ⟨isName_nameAt hname i, ht⟩, congrArg (Parameter.mk _) htype⟩
  obtain ⟨parameters, hover, hmap⟩ := exists_map_eq hparameters
  obtain ⟨results, hresult, hresults⟩ := exists_map_eq h.results
  refine ⟨⟨m.receiver, m.name, parameters, results⟩, ⟨h.receiver, h.name, ?_, ?_, hresult⟩, ?_⟩
  · exact fun p hp => (hover p hp).1
  · exact fun p hp => (hover p hp).2
  · rw [Declaration.method, hmap, hresults]
    rfl

namespace Declaration

variable {d : Declaration} {m : Method} {β : Type}

/-- What is made of the named parameters can be made of those of the declaration. -/
theorem mapIdx_parameters (h : d.method = m.named) (f : Nat → String → String → β) :
    (m.parameters.mapIdx fun i p => f i (p.nameAt i) p.type) =
      d.parameters.mapIdx fun i p => f i p.name p.type.text := by
  have hparameters : m.named.parameters = d.method.parameters := by rw [h]
  calc m.parameters.mapIdx (fun i p => f i (p.nameAt i) p.type)
      = m.named.parameters.mapIdx fun i p => f i p.name p.type := by
        rw [Method.named, List.mapIdx_mapIdx]
        rfl
    _ = d.parameters.mapIdx fun i p => f i p.name p.type.text := by
        rw [hparameters, method]
        exact List.ext_getElem (by simp) (by simp [NamedParameter.parameter])

theorem results_eq (h : d.method = m.named) : m.results = d.results.map PlainType.text := by
  have hresults : m.named.results = d.method.results := by rw [h]
  exact hresults

theorem mapIdx_results (h : d.method = m.named) (f : Nat → String → β) :
    m.results.mapIdx f = d.results.mapIdx fun i t => f i t.text := by
  rw [results_eq h]
  exact List.ext_getElem (by simp) (by simp)

theorem receiver_eq (h : d.method = m.named) : m.receiver = d.receiver :=
  (congrArg Method.receiver h).symm

theorem name_eq (h : d.method = m.named) : m.name = d.name := (congrArg Method.name h).symm

end Declaration

end MethodSkeleton
