/-
# `MethodSkeleton.Proofs.Builtin.Trees` — the built-in templates as trees

The built-in templates share three fragments: the comma in front of every element but the
first, the name of a parameter, and the lists made with them.  Each is one node, and a
template is a list of such nodes and of texts between them (`stubTree`, `mockTree`,
`testTree`).  That the templates are read as these trees is put together from the fragments,
so that only the outputs and tags themselves are evaluated, each of them once.
-/
import MethodSkeleton.Proofs.Template.Reading
import MethodSkeleton.Registry.Builtin

namespace MethodSkeleton.Builtin

/-! ## Outputs and tags -/

/-- What the name `x` stands for. -/
def named (x : String) : Expression := .path x []

/-- What `x` has under `key`. -/
def field (x key : String) : Expression := .path x [.constant (.ofText key)]

theorem isElement_output {e : String} {is : ElementClass}
    (h : ∀ rest, marked? ('{' :: '{' :: ' ' :: (e.toList ++ [' ', '}', '}'] ++ rest)) =
      some (is, rest)) : IsElement (output e) is := by
  have ht : (output e).toList = '{' :: '{' :: ' ' :: (e.toList ++ [' ', '}', '}']) := by
    simp [output]
  refine ⟨⟨'{', _, .inl rfl, ht⟩, ?_⟩
  intro rest
  rw [ht]
  exact h rest

theorem isElement_tag {e : String} {is : ElementClass}
    (h : ∀ rest, marked? ('{' :: '%' :: ' ' :: (e.toList ++ [' ', '%', '}'] ++ rest)) =
      some (is, rest)) : IsElement (tag e) is := by
  have ht : (tag e).toList = '{' :: '%' :: ' ' :: (e.toList ++ [' ', '%', '}']) := by
    simp [tag]
  refine ⟨⟨'%', _, .inr rfl, ht⟩, ?_⟩
  intro rest
  rw [ht]
  exact h rest

theorem output_receiver : IsElement (output "ReceiverType") (.output (named "ReceiverType") []) :=
  isElement_output fun rest => by simp only [String.reduceToList]; rfl

theorem output_name : IsElement (output "Name") (.output (named "Name") []) :=
  isElement_output fun rest => by simp only [String.reduceToList]; rfl

theorem output_index :
    IsElement (output "forloop.index0") (.output (field "forloop" "index0") []) :=
  isElement_output fun rest => by simp only [String.reduceToList]; rfl

theorem output_parameterName : IsElement (output "p.Name") (.output (field "p" "Name") []) :=
  isElement_output fun rest => by simp only [String.reduceToList]; rfl

theorem output_parameterType :
    IsElement (output "p.TypeExpr") (.output (field "p" "TypeExpr") []) :=
  isElement_output fun rest => by simp only [String.reduceToList]; rfl

theorem output_sliceType : IsElement (output "p.TypeExpr | replace: \"...\", \"[]\"")
    (.output (field "p" "TypeExpr")
      [⟨"replace", [.constant (.ofText "..."), .constant (.ofText "[]")]⟩]) :=
  isElement_output fun rest => by simp only [String.reduceToList]; rfl

theorem output_firstResult : IsElement (output "Returns[0]")
    (.output (.path "Returns" [.constant (.ofInt 0)]) []) :=
  isElement_output fun rest => by simp only [String.reduceToList]; rfl

theorem output_result : IsElement (output "r") (.output (named "r") []) :=
  isElement_output fun rest => by simp only [String.reduceToList]; rfl

theorem tag_unlessFirst : IsElement (tag "unless forloop.first")
    (.tag "unless" [.value (field "forloop" "first")]) :=
  isElement_tag fun rest => by simp only [String.reduceToList]; rfl

theorem tag_endunless : IsElement (tag "endunless") (.tag "endunless" []) :=
  isElement_tag fun rest => by simp only [String.reduceToList]; rfl

theorem tag_ifUnnamed : IsElement (tag "if p.Name == \"\"")
    (.tag "if" [.value (field "p" "Name"), .symbol (.comparison .eq),
      .value (.constant (.ofText ""))]) :=
  isElement_tag fun rest => by simp only [String.reduceToList]; rfl

theorem tag_else : IsElement (tag "else") (.tag "else" []) :=
  isElement_tag fun rest => by simp only [String.reduceToList]; rfl

theorem tag_endif : IsElement (tag "endif") (.tag "endif" []) :=
  isElement_tag fun rest => by simp only [String.reduceToList]; rfl

theorem tag_forParameters : IsElement (tag "for p in Parameters")
    (.tag "for" [.word "p", .word "in", .value (named "Parameters")]) :=
  isElement_tag fun rest => by simp only [String.reduceToList]; rfl

theorem tag_forResults : IsElement (tag "for r in Returns")
    (.tag "for" [.word "r", .word "in", .value (named "Returns")]) :=
  isElement_tag fun rest => by simp only [String.reduceToList]; rfl

theorem tag_endfor : IsElement (tag "endfor") (.tag "endfor" []) :=
  isElement_tag fun rest => by simp only [String.reduceToList]; rfl

theorem tag_ifSpread : IsElement (tag "if p.TypeExpr contains \"...\"")
    (.tag "if" [.value (field "p" "TypeExpr"), .word "contains",
      .value (.constant (.ofText "..."))]) :=
  isElement_tag fun rest => by simp only [String.reduceToList]; rfl

theorem tag_ifOneResult : IsElement (tag "if Returns.size == 1")
    (.tag "if" [.value (field "Returns" "size"), .symbol (.comparison .eq),
      .value (.constant (.ofInt 1))]) :=
  isElement_tag fun rest => by simp only [String.reduceToList]; rfl

theorem tag_elsifMoreResults : IsElement (tag "elsif Returns.size > 1")
    (.tag "elsif" [.value (field "Returns" "size"), .symbol (.comparison .gt),
      .value (.constant (.ofInt 1))]) :=
  isElement_tag fun rest => by simp only [String.reduceToList]; rfl

theorem tag_ifResults : IsElement (tag "if Returns.size > 0")
    (.tag "if" [.value (field "Returns" "size"), .symbol (.comparison .gt),
      .value (.constant (.ofInt 0))]) :=
  isElement_tag fun rest => by simp only [String.reduceToList]; rfl

/-! ## Fragments -/

def separatorNode : Node := .branch (.negated (.present (field "forloop" "first"))) [.text ", "] []

def parameterNameNode : Node :=
  .branch (.compare .eq (field "p" "Name") (.constant (.ofText "")))
    [.text "arg", .output ⟨field "forloop" "index0", []⟩] [.output ⟨field "p" "Name", []⟩]

/-- A loop over the whole of the list `source`. -/
def loopNode (x source : String) (body : List Node) : Node :=
  .loop ⟨x, named source, none, none, false⟩ body []

def parameterListNode : Node :=
  loopNode "p" "Parameters"
    [separatorNode, parameterNameNode, .text " ", .output ⟨field "p" "TypeExpr", []⟩]

def spreadNode : Node :=
  .branch (.compare .contains (field "p" "TypeExpr") (.constant (.ofText "..."))) [.text "..."] []

/-- A text, which is no node if it is empty. -/
def textNodes (t : String) : List Node := if t = "" then [] else [.text t]

def argumentListNode (front : String) : Node :=
  loopNode "p" "Parameters" (separatorNode :: (textNodes front ++ [parameterNameNode, spreadNode]))

def resultNode : Node := .output ⟨named "r", []⟩

/-- Several results in parentheses. -/
def moreResultsNode : Node :=
  .branch (.compare .gt (field "Returns" "size") (.constant (.ofInt 1)))
    [.text " (", loopNode "r" "Returns" [separatorNode, resultNode], .text ")"] []

def resultListNode : Node :=
  .branch (.compare .eq (field "Returns" "size") (.constant (.ofInt 1)))
    [.text " ", .output ⟨.path "Returns" [.constant (.ofInt 0)], []⟩] [moreResultsNode]

/-- A text that begins with an output or a tag. -/
theorem endsText_element {s : String} {is : ElementClass} (h : IsElement s is) (rest : List Char) :
    EndsText (s.toList ++ rest) :=
  .inr (h.opens.append rest)

section
variable {g : List Char} {ns : List Node}

theorem reads_separator (h : ReadsAs g ns) :
    ReadsAs (separator.toList ++ g) (separatorNode :: ns) := by
  have hcomma : ReadsAs (", ".toList ++ []) [.text ", "] :=
    .text (by decide) (by decide) (.inl rfl) .nil
  have hall : ReadsAs _ (separatorNode :: ns) := .unless tag_unlessFirst rfl hcomma tag_endunless h
  simpa only [separator, String.toList_append, List.append_assoc, List.nil_append] using hall

theorem reads_parameterName (h : ReadsAs g ns) :
    ReadsAs (parameterName.toList ++ g) (parameterNameNode :: ns) := by
  have hindex : ReadsAs ("arg".toList ++ ((output "forloop.index0").toList ++ []))
      [.text "arg", .output ⟨field "forloop" "index0", []⟩] :=
    .text (by decide) (by decide) (endsText_element output_index _) (.output output_index rfl .nil)
  have hname : ReadsAs ((output "p.Name").toList ++ []) [.output ⟨field "p" "Name", []⟩] :=
    .output output_parameterName rfl .nil
  have hall : ReadsAs _ (parameterNameNode :: ns) :=
    .branchElse tag_ifUnnamed rfl hindex tag_else hname tag_endif h
  simpa only [parameterName, String.toList_append, List.append_assoc, List.nil_append] using hall

theorem reads_loop {s x source : String} {body : List Char} {bs : List Node}
    (hs : IsElement s (.tag "for" [.word x, .word "in", .value (named source)]))
    (hb : ReadsAs body bs) (h : ReadsAs g ns) :
    ReadsAs (s.toList ++ (body ++ ((tag "endfor").toList ++ g))) (loopNode x source bs :: ns) :=
  .loop hs rfl hb tag_endfor h

theorem reads_parameterList (h : ReadsAs g ns) :
    ReadsAs (parameterList.toList ++ g) (parameterListNode :: ns) := by
  have hbody : ReadsAs _ [separatorNode, parameterNameNode, .text " ",
      .output ⟨field "p" "TypeExpr", []⟩] :=
    reads_separator <| reads_parameterName <|
      .text (by decide) (by decide) (endsText_element output_parameterType _)
        (.output output_parameterType rfl .nil)
  have hall : ReadsAs _ (parameterListNode :: ns) := reads_loop tag_forParameters hbody h
  simpa only [parameterList, String.toList_append, List.append_assoc, List.nil_append] using hall

theorem opens_parameterName (rest : List Char) : EndsText (parameterName.toList ++ rest) := by
  simp only [parameterName, String.toList_append, List.append_assoc]
  exact endsText_element tag_ifUnnamed _

theorem reads_front {front : String} (hfront : isPlainText front.toList = true)
    (hg : EndsText g) (h : ReadsAs g ns) :
    ReadsAs (front.toList ++ g) (textNodes front ++ ns) := by
  rw [textNodes]
  split
  · rename_i hempty
    rw [hempty]
    exact h
  · rename_i hne
    exact .text hfront (by simpa using hne) hg h

theorem reads_argumentList {front : String} (hfront : isPlainText front.toList = true)
    (h : ReadsAs g ns) :
    ReadsAs ((argumentList front).toList ++ g) (argumentListNode front :: ns) := by
  have hspread : ReadsAs ((tag "if p.TypeExpr contains \"...\"").toList ++
      (("...".toList ++ []) ++ ((tag "endif").toList ++ []))) [spreadNode] :=
    .branch tag_ifSpread rfl (.text (by decide) (by decide) (.inl rfl) .nil) tag_endif .nil
  have hname : ReadsAs _ [parameterNameNode, spreadNode] := reads_parameterName hspread
  have hfronted := reads_front hfront (opens_parameterName _) hname
  have hall : ReadsAs _ (argumentListNode front :: ns) :=
    reads_loop tag_forParameters (reads_separator hfronted) h
  simpa only [argumentList, String.toList_append, List.append_assoc, List.nil_append,
    List.append_nil] using hall

theorem reads_resultList (h : ReadsAs g ns) :
    ReadsAs (resultList.toList ++ g) (resultListNode :: ns) := by
  have hone : ReadsAs (" ".toList ++ ((output "Returns[0]").toList ++ []))
      [.text " ", .output ⟨.path "Returns" [.constant (.ofInt 0)], []⟩] :=
    .text (by decide) (by decide) (endsText_element output_firstResult _)
      (.output output_firstResult rfl .nil)
  have hresult : ReadsAs _ [separatorNode, resultNode] :=
    reads_separator (.output output_result rfl .nil)
  have hclose : ReadsAs (")".toList ++ []) [.text ")"] :=
    .text (by decide) (by decide) (.inl rfl) .nil
  have hlist : ReadsAs _ (.text " (" :: [loopNode "r" "Returns" _, .text ")"]) :=
    .text (by decide) (by decide) (endsText_element tag_forResults _)
      (reads_loop tag_forResults hresult hclose)
  have hall : ReadsAs _ (resultListNode :: ns) :=
    .branchElsif tag_ifOneResult rfl hone tag_elsifMoreResults rfl hlist tag_endif h
  simpa only [resultList, String.toList_append, List.append_assoc, List.nil_append,
    List.append_nil] using hall

end

/-! ## Templates -/

def receiverNode : Node := .output ⟨named "ReceiverType", []⟩

def nameNode : Node := .output ⟨named "Name", []⟩

def indexNode : Node := .output ⟨field "forloop" "index0", []⟩

/-- A branch on whether there are results. -/
def ifResultsNode (t : String) : Node :=
  .branch (.compare .gt (field "Returns" "size") (.constant (.ofInt 0))) [.text t] []

def stubTree : Template :=
  [.text "func (r *", receiverNode, .text ") ", nameNode, .text "(", parameterListNode, .text ")",
    resultListNode, .text " \x7b\n\tpanic(\"not implemented\")\n\x7d\n"]

def mockTree : Template :=
  [.text "func (m *", receiverNode, .text "Mock) ", nameNode, .text "(", parameterListNode,
    .text ")", resultListNode, .text " \x7b\n\t", ifResultsNode "return ", .text "m.", nameNode,
    .text "Func(", argumentListNode "", .text ")\n\x7d\n"]

/-- A parameter as a field of the test's arguments. -/
def argumentFieldNodes : List Node :=
  [.text "\t\t", parameterNameNode, .text " ",
    .output ⟨field "p" "TypeExpr",
      [.replace (.constant (.ofText "...")) (some (.constant (.ofText "[]")))]⟩, .text "\n"]

/-- A result as a field of the test's cases. -/
def wantFieldNodes : List Node := [.text "\t\twant", indexNode, .text " ", resultNode, .text "\n"]

/-- The comparison of a result with what is wanted. -/
def comparisonNodes : List Node :=
  [.text "\t\t\tif !reflect.DeepEqual(got", indexNode, .text ", tt.want", indexNode,
    .text (") \x7b\n" ++ "\t\t\t\tt.Errorf(\""), nameNode, .text "() got", indexNode,
    .text " = %v, want %v\", got", indexNode, .text ", tt.want", indexNode,
    .text (")\n" ++ "\t\t\t\x7d\n")]

def testTree : Template :=
  [.text "func Test", receiverNode, .text "_", nameNode,
    .text ("(t *testing.T) \x7b\n" ++ "\ttype args struct \x7b\n"),
    loopNode "p" "Parameters" argumentFieldNodes,
    .text ("\t\x7d\n" ++ "\ttests := []struct \x7b\n" ++ "\t\tname string\n" ++
      "\t\targs args\n"),
    loopNode "r" "Returns" wantFieldNodes,
    .text ("\t\x7d\x7b\n" ++ "\t\t// add test cases here\n" ++ "\t\x7d\n" ++
      "\tfor _, tt := range tests \x7b\n" ++ "\t\tt.Run(tt.name, func(t *testing.T) \x7b\n" ++
      "\t\t\tvar r "),
    receiverNode, .text ("\n" ++ "\t\t\t"),
    loopNode "r" "Returns" [separatorNode, .text "got", indexNode], ifResultsNode " := ",
    .text "r.", nameNode, .text "(", argumentListNode "tt.args.", .text ")\n",
    loopNode "r" "Returns" comparisonNodes,
    .text ("\t\t\x7d)\n" ++ "\t\x7d\n" ++ "\x7d\n")]

theorem opens_parameterList (rest : List Char) : EndsText (parameterList.toList ++ rest) := by
  simp only [parameterList, String.toList_append, List.append_assoc]
  exact endsText_element tag_forParameters _

theorem opens_argumentList (front : String) (rest : List Char) :
    EndsText ((argumentList front).toList ++ rest) := by
  simp only [argumentList, String.toList_append, List.append_assoc]
  exact endsText_element tag_forParameters _

theorem opens_resultList (rest : List Char) : EndsText (resultList.toList ++ rest) := by
  simp only [resultList, String.toList_append, List.append_assoc]
  exact endsText_element tag_ifOneResult _

/-- Plain text in front of a template that ends it. -/
theorem reads_text {t : String} {g : List Char} {ns : List Node} (hg : EndsText g)
    (h : ReadsAs g ns)
    (ht : (isPlainText t.toList && !t.toList.isEmpty) = true := by
      simp only [String.toList_append, String.reduceToList]; rfl) :
    ReadsAs (t.toList ++ g) (.text t :: ns) := by
  simp only [Bool.and_eq_true, Bool.not_eq_true', List.isEmpty_eq_false_iff] at ht
  exact .text ht.1 ht.2 hg h

theorem reads_ifResults {t : String} {g : List Char} {ns : List Node} (h : ReadsAs g ns)
    (ht : (isPlainText t.toList && !t.toList.isEmpty) = true := by
      simp only [String.toList_append, String.reduceToList]; rfl) :
    ReadsAs ((tag "if Returns.size > 0").toList ++ (t.toList ++ ((tag "endif").toList ++ g)))
      (ifResultsNode t :: ns) := by
  have hbody : ReadsAs (t.toList ++ []) [.text t] := reads_text (.inl rfl) .nil ht
  have hall : ReadsAs _ (ifResultsNode t :: ns) := .branch tag_ifResults rfl hbody tag_endif h
  simpa only [List.append_assoc, List.nil_append] using hall

theorem parseTemplate_stub : parseTemplate stub = .ok stubTree := by
  have hall : ReadsAs _ stubTree :=
    reads_text (endsText_element output_receiver _) <|
    .output output_receiver rfl <|
    reads_text (endsText_element output_name _) <|
    .output output_name rfl <|
    reads_text (opens_parameterList _) <|
    reads_parameterList <|
    reads_text (opens_resultList _) <|
    reads_resultList <| reads_text (.inl rfl) .nil
  refine parseTemplate_of_reads ?_
  -- the equation of so long a text is slow to make, and not needed
  delta stub
  simpa only [String.toList_append, List.append_assoc, List.append_nil] using hall

theorem parseTemplate_mock : parseTemplate mock = .ok mockTree := by
  have hall : ReadsAs _ mockTree :=
    reads_text (endsText_element output_receiver _) <|
    .output output_receiver rfl <|
    reads_text (endsText_element output_name _) <|
    .output output_name rfl <|
    reads_text (opens_parameterList _) <|
    reads_parameterList <|
    reads_text (opens_resultList _) <|
    reads_resultList <|
    reads_text (endsText_element tag_ifResults _) <|
    reads_ifResults <| reads_text (endsText_element output_name _) <|
    .output output_name rfl <|
    reads_text (opens_argumentList _ _) <|
    reads_argumentList (by decide) <|
    reads_text (.inl rfl) .nil
  refine parseTemplate_of_reads ?_
  delta mock
  simpa only [String.toList_append, List.append_assoc, List.append_nil] using hall

theorem parseTemplate_test : parseTemplate test = .ok testTree := by
  have hfield : ReadsAs _ argumentFieldNodes :=
    reads_text (opens_parameterName _) <| reads_parameterName <|
    reads_text (endsText_element output_sliceType _) <| .output output_sliceType rfl <|
    reads_text (.inl rfl) .nil
  have hwant : ReadsAs _ wantFieldNodes :=
    reads_text (endsText_element output_index _) <| .output output_index rfl <|
    reads_text (endsText_element output_result _) <| .output output_result rfl <|
    reads_text (.inl rfl) .nil
  have hgot : ReadsAs _ [separatorNode, .text "got", indexNode] :=
    reads_separator <| reads_text (endsText_element output_index _) <|
    .output output_index rfl .nil
  have hcompare : ReadsAs _ comparisonNodes :=
    reads_text (endsText_element output_index _) <| .output output_index rfl <|
    reads_text (endsText_element output_index _) <| .output output_index rfl <|
    reads_text (endsText_element output_name _) <| .output output_name rfl <|
    reads_text (endsText_element output_index _) <| .output output_index rfl <|
    reads_text (endsText_element output_index _) <| .output output_index rfl <|
    reads_text (endsText_element output_index _) <| .output output_index rfl <|
    reads_text (.inl rfl) .nil
  have hall : ReadsAs _ testTree :=
    reads_text (endsText_element output_receiver _) <| .output output_receiver rfl <|
    reads_text (endsText_element output_name _) <| .output output_name rfl <|
    reads_text (endsText_element tag_forParameters _) <| reads_loop tag_forParameters hfield <|
    reads_text (endsText_element tag_forResults _) <| reads_loop tag_forResults hwant <|
    reads_text (endsText_element output_receiver _) <| .output output_receiver rfl <|
    reads_text (endsText_element tag_forResults _) <| reads_loop tag_forResults hgot <|
    reads_ifResults <| reads_text (endsText_element output_name _) <| .output output_name rfl <|
    reads_text (opens_argumentList _ _) <| reads_argumentList (by decide) <|
    reads_text (endsText_element tag_forResults _) <| reads_loop tag_forResults hcompare <|
    reads_text (.inl rfl) .nil
  refine parseTemplate_of_reads ?_
  delta test
  simpa only [String.toList_append, List.append_assoc, List.append_nil] using hall

end MethodSkeleton.Builtin
