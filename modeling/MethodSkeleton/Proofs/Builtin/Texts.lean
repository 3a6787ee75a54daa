/-
# `MethodSkeleton.Proofs.Builtin.Texts` — what the built-in templates write

For every method each built-in template is rendered, and to a text that can be written down
without the template: `stubText`, `mockText` and `testText`.  Both declarations begin with the
same `signatureLine`, up to the receiver.
-/
import MethodSkeleton.Generate
import MethodSkeleton.Proofs.Builtin.Trees
import MethodSkeleton.Proofs.Template.Writing

namespace MethodSkeleton

/-! ## The texts -/

/-- The name that the parameter at index `i` is declared by. -/
def Parameter.nameAt (i : Nat) (p : Parameter) : String :=
  if p.name = "" then "arg" ++ toString i else p.name

/-- The element at index `i` of a list with commas. -/
def listed (i : Nat) (t : String) : String := if i = 0 then t else ", " ++ t

namespace Method

def parameterText (m : Method) : String :=
  String.join (m.parameters.mapIdx fun i p => listed i (p.nameAt i ++ " " ++ p.type))

/-- The parameters passed on, each behind `front`. -/
def argumentText (front : String) (m : Method) : String :=
  String.join (m.parameters.mapIdx fun i p =>
    listed i (front ++ p.nameAt i ++ if containsText p.type "..." then "..." else ""))

def resultText (m : Method) : String :=
  match m.results with
  | [] => ""
  | [r] => " " ++ r
  | rs => " (" ++ String.join (rs.mapIdx listed) ++ ")"

/-- The first line of a declaration; `x` is the receiver's name and `receiver` its type. -/
def signatureLine (x receiver : String) (m : Method) : String :=
  "func (" ++ x ++ " *" ++ receiver ++ ") " ++ m.name ++ "(" ++ m.parameterText ++ ")" ++
    m.resultText ++ " \x7b\n"

def stubText (m : Method) : String :=
  m.signatureLine "r" m.receiver ++ "\tpanic(\"not implemented\")\n\x7d\n"

/-- The function field of the mock that the call is passed on to. -/
def mockCall (m : Method) : String :=
  "\t" ++ (if m.results = [] then "" else "return ") ++ "m." ++ m.name ++ "Func(" ++
    m.argumentText "" ++ ")\n\x7d\n"

def mockText (m : Method) : String := m.signatureLine "m" (m.receiver ++ "Mock") ++ m.mockCall

end Method

/-- The parameter as a field; a variadic one holds a slice. -/
def Parameter.field (i : Nat) (p : Parameter) : String :=
  "\t\t" ++ p.nameAt i ++ " " ++ replaceText "..." "[]" p.type ++ "\n"

/-- The field for what is wanted of the result at index `i`. -/
def wantField (i : Nat) (type : String) : String :=
  "\t\twant" ++ toString i ++ " " ++ type ++ "\n"

namespace Method

/-- The call of the method under test. -/
def testCall (m : Method) : String :=
  "\t\t\t" ++ String.join (m.results.mapIdx fun i _ => listed i ("got" ++ toString i)) ++
    (if m.results = [] then "" else " := ") ++ "r." ++ m.name ++ "(" ++ m.argumentText "tt.args." ++
    ")\n"

/-- The comparison of the result at index `i` with what is wanted. -/
def comparison (m : Method) (i : Nat) : String :=
  "\t\t\tif !reflect.DeepEqual(got" ++ toString i ++ ", tt.want" ++ toString i ++ ") \x7b\n" ++
    "\t\t\t\tt.Errorf(\"" ++ m.name ++ "() got" ++ toString i ++ " = %v, want %v\", got" ++
    toString i ++ ", tt.want" ++ toString i ++ ")\n" ++ "\t\t\t\x7d\n"

def testText (m : Method) : String :=
  "func Test" ++ m.receiver ++ "_" ++ m.name ++ "(t *testing.T) \x7b\n" ++
    "\ttype args struct \x7b\n" ++ String.join (m.parameters.mapIdx Parameter.field) ++
    "\t\x7d\n" ++
    "\ttests := []struct \x7b\n" ++ "\t\tname string\n" ++ "\t\targs args\n" ++
    String.join (m.results.mapIdx wantField) ++ "\t\x7d\x7b\n" ++
    "\t\t// add test cases here\n" ++ "\t\x7d\n" ++ "\tfor _, tt := range tests \x7b\n" ++
    "\t\tt.Run(tt.name, func(t *testing.T) \x7b\n" ++ "\t\t\tvar r " ++ m.receiver ++ "\n" ++
    m.testCall ++ String.join (m.results.mapIdx fun i _ => m.comparison i) ++ "\t\t\x7d)\n" ++
    "\t\x7d\n" ++ "\x7d\n"

/-! The characters of these texts.  Their defining equations are slow to make, so they are not
used. -/

theorem toList_signatureLine (x receiver : String) (m : Method) :
    (m.signatureLine x receiver).toList =
      "func (".toList ++ (x.toList ++ (" *".toList ++ (receiver.toList ++ (") ".toList ++
        (m.name.toList ++ ("(".toList ++ (m.parameterText.toList ++ (")".toList ++
          (m.resultText.toList ++ " \x7b\n".toList))))))))) := by
  delta signatureLine
  simp only [String.toList_append, List.append_assoc]

theorem toList_stubText (m : Method) : m.stubText.toList =
    (m.signatureLine "r" m.receiver).toList ++ "\tpanic(\"not implemented\")\n\x7d\n".toList := by
  delta stubText
  simp only [String.toList_append]

theorem toList_mockText (m : Method) : m.mockText.toList =
    (m.signatureLine "m" (m.receiver ++ "Mock")).toList ++
      ("\t".toList ++ ((if m.results = [] then "" else "return ").toList ++ ("m.".toList ++
        (m.name.toList ++ ("Func(".toList ++ ((m.argumentText "").toList ++
          ")\n\x7d\n".toList)))))) := by
  delta mockText mockCall
  simp only [String.toList_append, List.append_assoc]

end Method

theorem Parameter.toList_field (i : Nat) (p : Parameter) : (p.field i).toList =
    "\t\t".toList ++ ((p.nameAt i).toList ++ (" ".toList ++
      ((replaceText "..." "[]" p.type).toList ++ "\n".toList))) := by
  delta Parameter.field
  simp only [String.toList_append, List.append_assoc]

theorem toList_wantField (i : Nat) (type : String) : (wantField i type).toList =
    "\t\twant".toList ++ ((toString i).toList ++ (" ".toList ++ (type.toList ++ "\n".toList))) := by
  delta wantField
  simp only [String.toList_append, List.append_assoc]

namespace Method

theorem toList_testCall (m : Method) : m.testCall.toList =
    "\t\t\t".toList ++
      ((String.join (m.results.mapIdx fun i _ => listed i ("got" ++ toString i))).toList ++
        ((if m.results = [] then "" else " := ").toList ++ ("r.".toList ++ (m.name.toList ++
          ("(".toList ++ ((m.argumentText "tt.args.").toList ++ ")\n".toList)))))) := by
  delta testCall
  simp only [String.toList_append, List.append_assoc]

theorem toList_comparison (m : Method) (i : Nat) : (m.comparison i).toList =
    "\t\t\tif !reflect.DeepEqual(got".toList ++ ((toString i).toList ++ (", tt.want".toList ++
      ((toString i).toList ++ (") \x7b\n".toList ++ ("\t\t\t\tt.Errorf(\"".toList ++
        (m.name.toList ++ ("() got".toList ++ ((toString i).toList ++
          (" = %v, want %v\", got".toList ++ ((toString i).toList ++ (", tt.want".toList ++
            ((toString i).toList ++ (")\n".toList ++ "\t\t\t\x7d\n".toList))))))))))))) := by
  delta comparison
  simp only [String.toList_append, List.append_assoc]

theorem toList_testText (m : Method) : m.testText.toList =
    "func Test".toList ++ (m.receiver.toList ++ ("_".toList ++ (m.name.toList ++
      ("(t *testing.T) \x7b\n".toList ++ ("\ttype args struct \x7b\n".toList ++
      ((String.join (m.parameters.mapIdx Parameter.field)).toList ++ ("\t\x7d\n".toList ++
      ("\ttests := []struct \x7b\n".toList ++ ("\t\tname string\n".toList ++
      ("\t\targs args\n".toList ++ ((String.join (m.results.mapIdx wantField)).toList ++
      ("\t\x7d\x7b\n".toList ++ ("\t\t// add test cases here\n".toList ++ ("\t\x7d\n".toList ++
      ("\tfor _, tt := range tests \x7b\n".toList ++
      ("\t\tt.Run(tt.name, func(t *testing.T) \x7b\n".toList ++ ("\t\t\tvar r ".toList ++
      (m.receiver.toList ++ ("\n".toList ++ (m.testCall.toList ++
      ((String.join (m.results.mapIdx fun i _ => m.comparison i)).toList ++
      ("\t\t\x7d)\n".toList ++ ("\t\x7d\n".toList ++ "\x7d\n".toList))))))))))))))))))))))) := by
  delta testText
  simp only [String.toList_append, List.append_assoc]

/-- The scope in which a template is rendered. -/
def scope (m : Method) : Scope := ⟨[], [], m.variables⟩

end Method

namespace Builtin

/-! ## Values -/

theorem writes_receiver {m : Method} {ns : List Node} {t : String} (h : Writes m.scope ns t) :
    Writes m.scope (receiverNode :: ns) (m.receiver ++ t) :=
  .output (v := .ofText m.receiver) rfl h

theorem writes_name {m : Method} {ns : List Node} {t : String} (h : Writes m.scope ns t) :
    Writes m.scope (nameNode :: ns) (m.name ++ t) :=
  .output (v := .ofText m.name) rfl h

theorem evaluate_of_value? {s : Scope} {e : Expression} {v : Value} (h : e.value? s = some v) :
    e.evaluate s = .ok v := by
  rw [Expression.evaluate, h]

/-- An output without filters. -/
theorem writes_value {s : Scope} {e : Expression} {v : Value} {ns : List Node} {t : String}
    (hv : e.value? s = some v) (h : Writes s ns t) :
    Writes s (.output ⟨e, []⟩ :: ns) (v.render ++ t) := by
  refine .output ?_ h
  rw [Pipeline.evaluate, evaluate_of_value? hv]
  rfl

theorem writes_ofText {s : Scope} {e : Expression} {u : String} {ns : List Node} {t : String}
    (hv : e.value? s = some (.ofText u)) (h : Writes s ns t) :
    Writes s (.output ⟨e, []⟩ :: ns) (u ++ t) :=
  writes_value hv h

theorem writes_text_only (s : Scope) (u : String) : Writes s [.text u] u := by
  have h : Writes s [.text u] (u ++ "") := .text u .nil
  rwa [String.append_empty] at h

/-- A branch without another side. -/
theorem writes_if {s : Scope} {c : Condition} {b : Bool} {yes : List Node} {u t : String}
    {ns : List Node} (hc : c.holds s = .ok b) (hy : Writes s yes u) (h : Writes s ns t) :
    Writes s (.branch c yes [] :: ns) ((if b then u else "") ++ t) := by
  refine .branch hc ?_ h
  cases b with
  | true => exact hy
  | false => exact .nil

/-- What is under a key is looked up in the value. -/
theorem field_value? {s : Scope} {root key : String} {v : Value} (h : s.value? root = some v) :
    (field root key).value? s = v.field? (.text key) := by
  have hkey : (Expression.value? s (.constant (.ofText key))).bind Value.scalar? =
      some (.text key) := rfl
  rw [field, Expression.value?, h]
  cases hf : v.field? (.text key) with
  | none => simp only [followKeys, hkey, hf]
  | some w => simp only [followKeys, hkey, hf]

section turn
variable {m : Method} {x : String} {n i : Nat} {item : Item} {ns : List Node} {t : String}

/-- What a loop knows about its own turn. -/
theorem loopField_value? (hx : x ≠ "forloop") (key : String) :
    (field "forloop" key).value? (m.scope.turn x n i item) =
      (loopRecord i n).field? (.text key) := by
  refine field_value? ?_
  simp [Scope.value?, Scope.turn, List.lookup_cons, beq_eq_false_iff_ne.mpr hx.symm]

theorem writes_index (hx : x ≠ "forloop") (h : Writes (m.scope.turn x n i item) ns t) :
    Writes (m.scope.turn x n i item) (indexNode :: ns) (toString i ++ t) := by
  have hi : (field "forloop" "index0").value? (m.scope.turn x n i item) = some (.ofInt i) := by
    rw [loopField_value? hx]
    rfl
  exact writes_value hi h

theorem writes_separator (hx : x ≠ "forloop") (h : Writes (m.scope.turn x n i item) ns t) :
    Writes (m.scope.turn x n i item) (separatorNode :: ns) (listed i t) := by
  have hfirst : (field "forloop" "first").value? (m.scope.turn x n i item) =
      some (.ofBool (i == 0)) := by
    rw [loopField_value? hx]
    rfl
  have hc : (Condition.negated (.present (field "forloop" "first"))).holds
      (m.scope.turn x n i item) = .ok (i != 0) := by
    simp only [Condition.holds, hfirst]
    cases i <;> rfl
  have hall := writes_if hc (writes_text_only _ ", ") h
  cases i with
  | zero => exact hall
  | succ i => exact hall

end turn

/-! ## Parameters -/

section parameter
variable {m : Method} {n i : Nat} {p : Parameter} {ns : List Node} {t : String}

theorem parameterField_value? (key : String) :
    (field "p" key).value? (m.scope.turn "p" n i p.toItem) =
      (Value.item p.toItem).field? (.text key) :=
  field_value? rfl

theorem name_value? : (field "p" "Name").value? (m.scope.turn "p" n i p.toItem) =
    some (.ofText p.name) := by
  rw [parameterField_value?]
  rfl

theorem type_value? : (field "p" "TypeExpr").value? (m.scope.turn "p" n i p.toItem) =
    some (.ofText p.type) := by
  rw [parameterField_value?]
  rfl

theorem writes_parameterName (h : Writes (m.scope.turn "p" n i p.toItem) ns t) :
    Writes (m.scope.turn "p" n i p.toItem) (parameterNameNode :: ns) (p.nameAt i ++ t) := by
  have hc : (Condition.compare .eq (field "p" "Name") (.constant (.ofText ""))).holds
      (m.scope.turn "p" n i p.toItem) = .ok (p.name == "") := by
    rw [Condition.holds, evaluate_of_value? name_value?]
    rfl
  refine .branch hc ?_ h
  rw [Parameter.nameAt]
  by_cases hempty : p.name = ""
  · have hindex : Writes (m.scope.turn "p" n i p.toItem) [indexNode] (toString i ++ "") :=
      writes_index (by decide) .nil
    rw [String.append_empty] at hindex
    rw [if_pos hempty, if_pos (by simpa using hempty)]
    exact .text "arg" hindex
  · have hname : Writes (m.scope.turn "p" n i p.toItem) _ (p.name ++ "") :=
      writes_ofText name_value? .nil
    rw [String.append_empty] at hname
    rw [if_neg hempty, if_neg (by simpa using hempty)]
    exact hname

theorem writes_spread (h : Writes (m.scope.turn "p" n i p.toItem) ns t) :
    Writes (m.scope.turn "p" n i p.toItem) (spreadNode :: ns)
      ((if containsText p.type "..." then "..." else "") ++ t) := by
  refine writes_if ?_ (writes_text_only _ "...") h
  rw [Condition.holds, evaluate_of_value? type_value?]
  rfl

theorem writes_sliceType (h : Writes (m.scope.turn "p" n i p.toItem) ns t) :
    Writes (m.scope.turn "p" n i p.toItem)
      (.output ⟨field "p" "TypeExpr",
        [.replace (.constant (.ofText "...")) (some (.constant (.ofText "[]")))]⟩ :: ns)
      (replaceText "..." "[]" p.type ++ t) := by
  refine .output (v := .ofText (replaceText "..." "[]" p.type)) ?_ h
  rw [Pipeline.evaluate, evaluate_of_value? type_value?]
  rfl

end parameter

section
variable {m : Method} {ns : List Node} {t : String}

theorem writes_parameters {body : List Node} {f : Nat → Parameter → String}
    (hbody : ∀ i p, Writes (m.scope.turn "p" m.parameters.length i p.toItem) body (f i p))
    (h : Writes m.scope ns t) : Writes m.scope (loopNode "p" "Parameters" body :: ns)
      (String.join (m.parameters.mapIdx f) ++ t) :=
  .loop (evaluate_of_value? rfl) hbody h

theorem writes_parameterList (h : Writes m.scope ns t) :
    Writes m.scope (parameterListNode :: ns) (m.parameterText ++ t) := by
  refine writes_parameters ?_ h
  intro i p
  have htype : Writes (m.scope.turn "p" m.parameters.length i p.toItem) _ (p.type ++ "") :=
    writes_ofText type_value? .nil
  have hall := writes_separator (by decide) (writes_parameterName (.text " " htype))
  rwa [String.append_empty, ← String.append_assoc] at hall

theorem writes_argumentList (front : String) (h : Writes m.scope ns t) :
    Writes m.scope (argumentListNode front :: ns) (m.argumentText front ++ t) := by
  refine writes_parameters ?_ h
  intro i p
  refine writes_separator (by decide) ?_
  have hname : Writes (m.scope.turn "p" m.parameters.length i p.toItem)
      [parameterNameNode, spreadNode] (p.nameAt i ++ (_ ++ "")) :=
    writes_parameterName (writes_spread .nil)
  rw [String.append_empty] at hname
  rw [String.append_assoc, textNodes]
  split
  · rename_i hempty
    simpa [hempty] using hname
  · exact .text front hname

end

/-! ## Results -/

section result
variable {m : Method} {n i : Nat} {r : String} {ns : List Node} {t : String}

/-- A result as an item of a list. -/
def resultItem (r : String) : Item := .scalar (.text r)

theorem writes_result (h : Writes (m.scope.turn "r" n i (resultItem r)) ns t) :
    Writes (m.scope.turn "r" n i (resultItem r)) (resultNode :: ns) (r ++ t) :=
  writes_ofText rfl h

theorem writes_turnName (h : Writes (m.scope.turn "r" n i (resultItem r)) ns t) :
    Writes (m.scope.turn "r" n i (resultItem r)) (nameNode :: ns) (m.name ++ t) :=
  writes_ofText rfl h

theorem writes_results {body : List Node} {f : Nat → String → String}
    (hbody : ∀ i r, Writes (m.scope.turn "r" m.results.length i (resultItem r)) body (f i r))
    (h : Writes m.scope ns t) : Writes m.scope (loopNode "r" "Returns" body :: ns)
      (String.join (m.results.mapIdx f) ++ t) :=
  .loop (evaluate_of_value? rfl) hbody h

theorem size_value? :
    (field "Returns" "size").value? m.scope = some (.ofInt m.results.length) := by
  have hlookup : m.scope.value? "Returns" = some (.list (m.results.map resultItem)) := rfl
  rw [field_value? hlookup]
  simp [Value.field?, Scalar.integer?, readInteger?, numberSign, Scalar.render, Value.size]

theorem holds_size (op : Comparison) (k : Int) {b : Bool}
    (h : op.holds? (.ofInt m.results.length) (.ofInt k) = some b) :
    (Condition.compare op (field "Returns" "size") (.constant (.ofInt k))).holds m.scope =
      .ok b := by
  have hk : Expression.evaluate m.scope (.constant (.ofInt k)) = .ok (.ofInt k) := rfl
  simp only [Condition.holds, evaluate_of_value? size_value?, hk, bind, Except.bind, h]
  rfl

theorem holds_one : (Condition.compare .eq (field "Returns" "size") (.constant (.ofInt 1))).holds
    m.scope = .ok (m.results.length == 1) := by
  refine holds_size .eq 1 ?_
  show some ((m.results.length : Int) == 1) = _
  rw [Option.some_inj, Bool.eq_iff_iff, beq_iff_eq, beq_iff_eq]
  omega

theorem holds_more (k : Nat) :
    (Condition.compare .gt (field "Returns" "size") (.constant (.ofInt k))).holds m.scope =
      .ok (decide (k < m.results.length)) := by
  refine holds_size .gt k ?_
  show some (some (compare (m.results.length : Int) k) == some .gt) = _
  rw [Option.some_inj, Bool.eq_iff_iff, beq_iff_eq, decide_eq_true_iff, Option.some_inj,
    Int.compare_eq_gt]
  omega

theorem writes_ifResults (u : String) (h : Writes m.scope ns t) :
    Writes m.scope (ifResultsNode u :: ns) ((if m.results = [] then "" else u) ++ t) := by
  have hall : Writes m.scope (ifResultsNode u :: ns)
      ((if decide (0 < m.results.length) then u else "") ++ t) := 
    writes_if (holds_more 0) (writes_text_only _ u) h
  cases hm : m.results with
  | nil => simpa [hm] using hall
  | cons r rs => simpa [hm] using hall

theorem firstResult_value? {rs : List String} (hm : m.results = r :: rs) :
    Expression.value? m.scope (.path "Returns" [.constant (.ofInt 0)]) = some (.ofText r) := by
  have hlookup : m.scope.value? "Returns" = some (.list (m.results.map resultItem)) := rfl
  rw [Expression.value?, hlookup, hm]
  rfl

theorem writes_moreResults : Writes m.scope [moreResultsNode]
    (if 1 < m.results.length then " (" ++ String.join (m.results.mapIdx listed) ++ ")"
      else "") := by
  have hlist : Writes m.scope [.text " (", loopNode "r" "Returns" [separatorNode, resultNode],
      .text ")"] (" (" ++ (String.join (m.results.mapIdx fun i r => listed i (r ++ "")) ++
        (")" ++ ""))) :=
    .text " (" <| writes_results (fun i r => writes_separator (by decide) (writes_result .nil)) <|
      .text ")" .nil
  simp only [String.append_empty] at hlist
  have hall : Writes m.scope [moreResultsNode] _ := writes_if (holds_more 1) hlist .nil
  simpa only [decide_eq_true_eq, String.append_empty, ← String.append_assoc] using hall

theorem writes_resultList (h : Writes m.scope ns t) :
    Writes m.scope (resultListNode :: ns) (m.resultText ++ t) := by
  refine .branch holds_one ?_ h
  have hmore := @writes_moreResults m
  rw [Method.resultText]
  cases hm : m.results with
  | nil =>
      rw [hm] at hmore
      exact hmore
  | cons r rs =>
      cases rs with
      | nil =>
          have hone : Writes m.scope [.output ⟨.path "Returns" [.constant (.ofInt 0)], []⟩]
              (r ++ "") := writes_ofText (firstResult_value? hm) .nil
          rw [String.append_empty] at hone
          exact .text " " hone
      | cons r' rs =>
          rw [hm] at hmore
          exact hmore

end result

/-! ## Templates -/

/-- Texts are compared by their characters, so that it does not matter where literals end. -/
theorem writes_congr {s : Scope} {nodes : List Node} {t u : String} (h : Writes s nodes t)
    (ht : u.toList = t.toList) : Writes s nodes u := by
  rw [String.toList_inj.mp ht]
  exact h

theorem renderText_of_writes {m : Method} {s t : String} {nodes : List Node}
    (hs : parseTemplate s = .ok nodes) (h : Writes m.scope nodes t) :
    renderText m s = .ok t := by
  rw [Writes] at h
  have hcompile : TemplateEngine.core.compile s = .ok nodes := by
    show (parseTemplate s).mapError _ = _
    rw [hs]
    rfl
  have hfill : TemplateEngine.core.fill nodes m.variables = .ok t := by
    show (renderNodes m.scope nodes >>= _ : Except RenderFault String).mapError _ = _
    rw [h]
    rfl
  rw [renderText, TemplateEngine.render, hcompile]
  show (TemplateEngine.core.fill nodes m.variables).mapError _ = _
  rw [hfill]
  rfl

theorem renderText_stub (m : Method) : renderText m stub = .ok m.stubText := by
  have hall : Writes m.scope stubTree _ :=
    .text _ <| writes_receiver <| .text _ <| writes_name <| .text _ <| writes_parameterList <|
    .text _ <| writes_resultList <| .text _ .nil
  refine renderText_of_writes parseTemplate_stub (writes_congr hall ?_)
  simp [Method.toList_stubText, Method.toList_signatureLine]

theorem renderText_mock (m : Method) : renderText m mock = .ok m.mockText := by
  have hall : Writes m.scope mockTree _ :=
    .text _ <| writes_receiver <| .text _ <| writes_name <| .text _ <| writes_parameterList <|
    .text _ <| writes_resultList <| .text _ <| writes_ifResults _ <| .text _ <| writes_name <|
    .text _ <| writes_argumentList _ <| .text _ .nil
  refine renderText_of_writes parseTemplate_mock (writes_congr hall ?_)
  simp [Method.toList_mockText, Method.toList_signatureLine]

section
variable {m : Method} {n : Nat}

theorem writes_field (i : Nat) (p : Parameter) :
    Writes (m.scope.turn "p" n i p.toItem) argumentFieldNodes (p.field i) := by
  have hall : Writes (m.scope.turn "p" n i p.toItem) argumentFieldNodes _ :=
    .text _ <| writes_parameterName <| .text _ <| writes_sliceType <| .text _ .nil
  refine writes_congr hall ?_
  simp [Parameter.toList_field]

theorem writes_wantField (i : Nat) (r : String) :
    Writes (m.scope.turn "r" n i (resultItem r)) wantFieldNodes (wantField i r) := by
  have hall : Writes (m.scope.turn "r" n i (resultItem r)) wantFieldNodes _ :=
    .text _ <| writes_index (by decide) <| .text _ <| writes_result <| .text _ .nil
  refine writes_congr hall ?_
  simp [toList_wantField]

theorem writes_got (i : Nat) (r : String) :
    Writes (m.scope.turn "r" n i (resultItem r)) [separatorNode, .text "got", indexNode]
      (listed i ("got" ++ toString i)) := by
  have hindex : Writes (m.scope.turn "r" n i (resultItem r)) [indexNode] (toString i ++ "") :=
    writes_index (by decide) .nil
  rw [String.append_empty] at hindex
  exact writes_separator (by decide) (.text "got" hindex)

theorem writes_comparison (i : Nat) (r : String) :
    Writes (m.scope.turn "r" n i (resultItem r)) comparisonNodes (m.comparison i) := by
  have hall : Writes (m.scope.turn "r" n i (resultItem r)) comparisonNodes _ :=
    .text _ <| writes_index (by decide) <| .text _ <| writes_index (by decide) <| .text _ <|
    writes_turnName <| .text _ <| writes_index (by decide) <| .text _ <|
    writes_index (by decide) <| .text _ <| writes_index (by decide) <| .text _ .nil
  refine writes_congr hall ?_
  simp [Method.toList_comparison]

end

theorem renderText_test (m : Method) : renderText m test = .ok m.testText := by
  have hall : Writes m.scope testTree _ :=
    .text _ <| writes_receiver <| .text _ <| writes_name <| .text _ <|
    writes_parameters writes_field <| .text _ <| writes_results writes_wantField <| .text _ <|
    writes_receiver <| .text _ <| writes_results writes_got <| writes_ifResults _ <| .text _ <|
    writes_name <| .text _ <| writes_argumentList _ <| .text _ <|
    writes_results writes_comparison <| .text _ .nil
  refine renderText_of_writes parseTemplate_test (writes_congr hall ?_)
  simp only [Method.toList_testText, Method.toList_testCall, String.toList_append,
    String.toList_empty, List.append_nil, List.append_assoc]

end Builtin

/-- A skeleton that is not laid out is the text that its template writes. -/
theorem generate_of_renderText {source template text : String} {m : Method}
    (hm : parseSignature source = .ok m) (h : renderText m template = .ok text) :
    generate source template false = .ok text := by
  rw [generate, hm]
  show ((renderText m template).mapError GenerateError.template >>= _) = _
  rw [h]
  rfl

end MethodSkeleton
