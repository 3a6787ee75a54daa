/-
# `MethodSkeleton.Proofs.Builtin.Written` — the declarations that the built-in templates stand for

`Texts` says what each template writes in the terms of its own loops: every element with the
separator that its turn writes.  Here the same texts are given as the language has them, lists
joined by `, ` and an ellipsis sought as a part of a type (`renderText_builtin`).  No method makes a
built-in template fail.
-/
import MethodSkeleton.Proofs.Builtin.Texts

namespace MethodSkeleton

/-! ## Lists -/

theorem join_mapIdx_behind {α : Type} (f : Nat → α → String) (t : String) (xs : List α) :
    t ++ String.join (xs.mapIdx fun i x => ", " ++ f i x) =
      ", ".intercalate (t :: xs.mapIdx f) := by
  induction xs generalizing t f with
  | nil => simp
  | cons x xs ih =>
      rw [List.mapIdx_cons, List.mapIdx_cons, String.join_cons, String.intercalate_cons_cons,
        ← ih (fun i => f (i + 1)) (f 0 x)]
      simp only [String.append_assoc]

/-- Elements that are written with their separators are joined by the separator. -/
theorem join_mapIdx_listed {α : Type} (f : Nat → α → String) (xs : List α) :
    String.join (xs.mapIdx fun i x => listed i (f i x)) = ", ".intercalate (xs.mapIdx f) := by
  cases xs with
  | nil => simp
  | cons x xs =>
      rw [List.mapIdx_cons, List.mapIdx_cons, String.join_cons]
      exact join_mapIdx_behind (fun i => f (i + 1)) (f 0 x) xs

theorem join_mapIdx_listed_self (ts : List String) :
    String.join (ts.mapIdx listed) = ", ".intercalate ts := by
  have hself : ts.mapIdx (fun _ t => t) = ts := List.ext_getElem (by simp) (by simp)
  exact (join_mapIdx_listed (fun _ t => t) ts).trans (congrArg _ hself)

/-! ## Ellipses -/

/-- A text with an ellipsis in it. -/
def HoldsEllipsis (t : String) : Prop := ['.', '.', '.'] <:+: t.toList

instance (t : String) : Decidable (HoldsEllipsis t) := inferInstanceAs (Decidable (_ <:+: _))

theorem occursIn_iff {pattern cs : List Char} : occursIn pattern cs = true ↔ pattern <:+: cs := by
  induction cs with
  | nil => rw [occursIn, List.isEmpty_iff, List.infix_nil]
  | cons c cs ih =>
      rw [occursIn, Bool.or_eq_true, ih, List.isPrefixOf_iff_prefix, List.infix_cons_iff]

theorem containsText_ellipsis_iff (t : String) :
    containsText t "..." = true ↔ HoldsEllipsis t :=
  occursIn_iff

/-- The characters with a pair of brackets for every ellipsis, from the left. -/
def sliced : List Char → List Char
  | '.' :: '.' :: '.' :: cs => '[' :: ']' :: sliced cs
  | c :: cs => c :: sliced cs
  | [] => []

theorem splitAfter_ne_nil (pattern : List Char) (skip : Nat) (cs : List Char) :
    splitAfter pattern skip cs ≠ [] := by
  induction cs generalizing skip with
  | nil => simp [splitAfter]
  | cons c cs ih =>
      cases skip with
      | succ skip => exact ih skip
      | zero =>
          rw [splitAfter]
          split
          · simp
          · split <;> simp

theorem intercalate_splitAfter_ellipsis (cs : List Char) :
    List.intercalate ['[', ']'] (splitAfter ['.', '.', '.'] 0 cs) = sliced cs := by
  fun_induction sliced cs with
  | case1 cs ih =>
      show List.intercalate _ ([] :: splitAfter _ 0 cs) = _
      rw [List.intercalate_cons_of_ne_nil (splitAfter_ne_nil _ 0 cs), ih]
      rfl
  | case2 c cs hc ih =>
      have hstarts : ['.', '.', '.'].isPrefixOf (c :: cs) = false := by
        rw [Bool.eq_false_iff, ne_eq, List.isPrefixOf_iff_prefix]
        rintro ⟨rest, hrest⟩
        obtain ⟨rfl, rfl⟩ := List.cons.inj hrest
        exact hc rest rfl rfl
      rw [splitAfter, if_neg (by simp [hstarts]), ← ih]
      obtain ⟨part, parts, hparts⟩ := List.exists_cons_of_ne_nil (splitAfter_ne_nil _ 0 cs)
      rw [hparts]
      cases parts <;> simp
  | case3 => rfl

theorem replaceText_ellipsis_eq (t : String) :
    replaceText "..." "[]" t = String.ofList (sliced t.toList) :=
  congrArg String.ofList (intercalate_splitAfter_ellipsis t.toList)

/-! ## Declarations -/

namespace Method

/-- The parameters, each with its type. -/
def parameterList (m : Method) : String :=
  ", ".intercalate (m.parameters.mapIdx fun i p => p.nameAt i ++ " " ++ p.type)

/-- The parameters as arguments, each behind `front` and spread if its type holds an ellipsis. -/
def argumentList (front : String) (m : Method) : String :=
  ", ".intercalate (m.parameters.mapIdx fun i p =>
    front ++ p.nameAt i ++ if HoldsEllipsis p.type then "..." else "")

/-- Nothing, the result, or the results in parentheses. -/
def resultList (m : Method) : String :=
  match m.results with
  | [] => ""
  | [r] => " " ++ r
  | rs => " (" ++ ", ".intercalate rs ++ ")"

/-- The variables for the results of a call, in front of it. -/
def gotList (m : Method) : String :=
  if m.results = [] then "" else
    ", ".intercalate (m.results.mapIdx fun i _ => "got" ++ toString i) ++ " := "

theorem parameterText_eq (m : Method) : m.parameterText = m.parameterList :=
  join_mapIdx_listed (fun i (p : Parameter) => p.nameAt i ++ " " ++ p.type) m.parameters

theorem argumentText_eq (front : String) (m : Method) :
    m.argumentText front = m.argumentList front := by
  simp only [argumentText, argumentList, containsText_ellipsis_iff]
  exact join_mapIdx_listed _ m.parameters

theorem resultText_eq (m : Method) : m.resultText = m.resultList := by
  rw [resultText, resultList]
  cases m.results with
  | nil => rfl
  | cons r rs =>
      cases rs with
      | nil => rfl
      | cons r' rs =>
          show " (" ++ String.join ((r :: r' :: rs).mapIdx listed) ++ ")" = _
          rw [join_mapIdx_listed_self]

theorem join_got (m : Method) :
    String.join (m.results.mapIdx fun i _ => listed i ("got" ++ toString i)) ++
      (if m.results = [] then "" else " := ") = m.gotList := by
  rw [join_mapIdx_listed fun i _ => "got" ++ toString i, gotList]
  split
  · rename_i hnone
    simp [hnone]
  · rfl

end Method

theorem Parameter.field_eq (i : Nat) (p : Parameter) : p.field i =
    "\t\t" ++ p.nameAt i ++ " " ++ String.ofList (sliced p.type.toList) ++ "\n" := by
  delta Parameter.field
  rw [replaceText_ellipsis_eq]

theorem wantField_eq (i : Nat) (r : String) :
    wantField i r = "\t\twant" ++ toString i ++ " " ++ r ++ "\n" := by
  delta wantField
  rfl

theorem Method.comparison_eq (m : Method) (i : Nat) : m.comparison i =
    "\t\t\tif !reflect.DeepEqual(got" ++ toString i ++ ", tt.want" ++ toString i ++ ") \x7b\n" ++
      "\t\t\t\tt.Errorf(\"" ++ m.name ++ "() got" ++ toString i ++ " = %v, want %v\", got" ++
      toString i ++ ", tt.want" ++ toString i ++ ")\n" ++ "\t\t\t\x7d\n" := by
  refine String.toList_inj.mp ?_
  rw [toList_comparison]
  simp only [String.toList_append, List.append_assoc]

/-- **What the built-in templates write.**  Rendering a method with them never fails.  The stub and
the mock declare the method with every parameter under its own name, or under `arg` and its index,
and with the results as the language writes them; the mock passes all of its parameters on, and
returns what comes back if there are results.  The test has a field for each parameter, with
brackets for the ellipses of its type, and a wanted field, a variable and a comparison for each
result. -/
theorem renderText_builtin (m : Method) :
    renderText m Builtin.stub = .ok
      ("func (r *" ++ m.receiver ++ ") " ++ m.name ++ "(" ++ m.parameterList ++ ")" ++
        m.resultList ++ " \x7b\n\tpanic(\"not implemented\")\n\x7d\n") ∧
    renderText m Builtin.mock = .ok
      ("func (m *" ++ m.receiver ++ "Mock) " ++ m.name ++ "(" ++ m.parameterList ++ ")" ++
        m.resultList ++ " \x7b\n\t" ++ (if m.results = [] then "" else "return ") ++ "m." ++
        m.name ++ "Func(" ++ m.argumentList "" ++ ")\n\x7d\n") ∧
    renderText m Builtin.test = .ok
      ("func Test" ++ m.receiver ++ "_" ++ m.name ++ "(t *testing.T) \x7b\n" ++
        "\ttype args struct \x7b\n" ++
        String.join (m.parameters.mapIdx fun i p =>
          "\t\t" ++ p.nameAt i ++ " " ++ String.ofList (sliced p.type.toList) ++ "\n") ++
        "\t\x7d\n" ++
        "\ttests := []struct \x7b\n" ++
        "\t\tname string\n" ++
        "\t\targs args\n" ++
        String.join (m.results.mapIdx fun i r => "\t\twant" ++ toString i ++ " " ++ r ++ "\n") ++
        "\t\x7d\x7b\n" ++
        "\t\t// add test cases here\n" ++
        "\t\x7d\n" ++
        "\tfor _, tt := range tests \x7b\n" ++
        "\t\tt.Run(tt.name, func(t *testing.T) \x7b\n" ++
        "\t\t\tvar r " ++ m.receiver ++ "\n" ++
        "\t\t\t" ++ m.gotList ++ "r." ++ m.name ++ "(" ++ m.argumentList "tt.args." ++ ")\n" ++
        String.join (m.results.mapIdx fun i _ =>
          "\t\t\tif !reflect.DeepEqual(got" ++ toString i ++ ", tt.want" ++ toString i ++
            ") \x7b\n" ++
            "\t\t\t\tt.Errorf(\"" ++ m.name ++ "() got" ++ toString i ++
            " = %v, want %v\", got" ++ toString i ++ ", tt.want" ++ toString i ++ ")\n" ++
            "\t\t\t\x7d\n") ++
        "\t\t\x7d)\n" ++
        "\t\x7d\n" ++
        "\x7d\n") := by
  rw [Builtin.renderText_stub, Builtin.renderText_mock, Builtin.renderText_test]
  refine ⟨congrArg Except.ok (String.toList_inj.mp ?_),
    congrArg Except.ok (String.toList_inj.mp ?_), congrArg Except.ok (String.toList_inj.mp ?_)⟩
  · simp [Method.toList_stubText, Method.toList_signatureLine, Method.parameterText_eq,
      Method.resultText_eq]
  · simp [Method.toList_mockText, Method.toList_signatureLine, Method.parameterText_eq,
      Method.resultText_eq, Method.argumentText_eq]
  · have hfields := congrArg (m.parameters.mapIdx ·) (funext fun i => funext (Parameter.field_eq i))
    have hwants := congrArg (m.results.mapIdx ·) (funext fun i => funext (wantField_eq i))
    have hchecks := congrArg (m.results.mapIdx ·)
      (funext fun i => funext fun _ => m.comparison_eq i)
    simp only [Method.toList_testText, Method.toList_testCall, hfields, hwants, hchecks,
      Method.argumentText_eq, ← Method.join_got,
      String.toList_append, List.append_assoc]

end MethodSkeleton
