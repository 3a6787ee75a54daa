/-
# `MethodSkeleton.Proofs.Builtin.LaidOut` — laying out what the built-in templates write

What the stub, the mock and the test write for a plain method is a page of settled rows, so
laying it out gives the same bytes again, and a skeleton does not depend on whether it is laid
out (`builtin_laid_out`).  Types may be made of any words here, reserved ones too.
-/
import MethodSkeleton.Proofs.Builtin.TestPage
import MethodSkeleton.Proofs.Signature.SinglePass

namespace MethodSkeleton

/-- A text that settled rows spell is laid out already. -/
theorem reformatBytes_of_page {rows : List SetRow} {text : String} (h : AllSettled [] rows [])
    (hne : rows ≠ []) (htext : rows.flatMap SetRow.text = text.toList) :
    reformatBytes text.toUTF8 = .ok text := by
  have hpage := h.reformat_eq hne
  rwa [h.pageText_eq, htext, String.ofList_toList, ← reformatBytes_toUTF8] at hpage

/-- A skeleton is the text that its template writes, if that is laid out already. -/
theorem generate_formatted {source template text : String} {m : Method}
    (hm : parseSignature source = .ok m) (h : renderText m template = .ok text)
    (hformat : reformatBytes text.toUTF8 = .ok text) :
    generate source template true = .ok text := by
  rw [reformatBytes_toUTF8] at hformat
  rw [generate, hm]
  show ((renderText m template).mapError GenerateError.template >>= _) = _
  rw [h]
  show (reformat text).mapError GenerateError.layout = _
  rw [hformat]
  rfl

/-- What the built-in templates write for a plain method, and that laying it out changes no
byte. -/
theorem exists_laid_out {m : Method} (h : m.IsPlain IsIdentifier) {template : String}
    (htemplate : template ∈ [Builtin.stub, Builtin.mock, Builtin.test]) :
    ∃ text, renderText m template = .ok text ∧ reformatBytes text.toUTF8 = .ok text := by
  obtain ⟨d, hover, hd⟩ := h.exists_declaration
  simp only [List.mem_cons, List.not_mem_nil, or_false] at htemplate
  rcases htemplate with rfl | rfl | rfl
  · exact ⟨_, Builtin.renderText_stub m, reformatBytes_of_page (Declaration.settled_stub hover)
      (List.cons_ne_nil _ _) (Declaration.text_stub hd)⟩
  · exact ⟨_, Builtin.renderText_mock m, reformatBytes_of_page (Declaration.settled_mock hover)
      (List.cons_ne_nil _ _) (Declaration.text_mock hd hover)⟩
  · exact ⟨_, Builtin.renderText_test m, reformatBytes_of_page (Declaration.settled_testPage hover)
      (List.cons_ne_nil _ _) (Declaration.text_test hd hover)⟩

/-- **The built-in templates write what is laid out already.**  For every plain method each of
them is rendered, laying its text out gives the same bytes, and so the skeleton of a signature
that declares the method is the same with and without a layout. -/
theorem builtin_laid_out {m : Method} (h : m.IsPlain IsIdentifier) :
    ∀ template ∈ [Builtin.stub, Builtin.mock, Builtin.test], ∃ text,
      renderText m template = .ok text ∧ reformatBytes text.toUTF8 = .ok text ∧
        ∀ source, parseSignature source = .ok m →
          generate source template true = .ok text ∧ generate source template false = .ok text := by
  intro template htemplate
  obtain ⟨text, hrender, hformat⟩ := exists_laid_out h htemplate
  refine ⟨text, hrender, hformat, fun source hm => ⟨?_, ?_⟩⟩
  · exact generate_formatted hm hrender hformat
  · exact generate_of_renderText hm hrender

/-- A method with a named parameter, one without a name, and a variadic one. -/
def findMethod : Method :=
  ⟨"db", "Find", [⟨"ctx", "context.Context"⟩, ⟨"", "sql.Tx"⟩, ⟨"keys", "...[]*byte"⟩],
    ["[]*Row", "error"]⟩

theorem findMethod_isPlain : findMethod.IsPlain IsIdentifier := by
  refine ⟨by decide, by decide, ?_, ?_⟩
  · refine List.forall_mem_cons.mpr ⟨⟨.inr (by decide), ?_⟩,
      List.forall_mem_cons.mpr ⟨⟨.inl rfl, ?_⟩,
        List.forall_mem_singleton.mpr ⟨.inr (by decide), ?_⟩⟩⟩
    · exact ⟨⟨false, .words "context" ["Context"]⟩, ⟨by decide, by decide⟩, by decide⟩
    · exact ⟨⟨false, .words "sql" ["Tx"]⟩, ⟨by decide, by decide⟩, by decide⟩
    · exact ⟨⟨true, .slice (.pointer (.words "byte" []))⟩, ⟨by decide, by decide⟩, by decide⟩
  · refine List.forall_mem_cons.mpr ⟨?_, List.forall_mem_singleton.mpr ?_⟩
    · exact ⟨.slice (.pointer (.words "Row" [])), ⟨by decide, by decide⟩, by decide⟩
    · exact ⟨.words "error" [], ⟨by decide, by decide⟩, by decide⟩

def findSource : String :=
  "func (d *db) Find(ctx context.Context, sql.Tx, keys ...[]*byte) ([]*Row, error)"

theorem parseSignature_findSource : parseSignature findSource = .ok findMethod := by
  have htokens : (tokenize findSource).map (·.value) =
      [.func, .leftParen, .identifier "d", .star, .identifier "db", .rightParen,
        .identifier "Find", .leftParen, .identifier "ctx", .identifier "context", .dot,
        .identifier "Context", .comma, .identifier "sql", .dot, .identifier "Tx", .comma,
        .identifier "keys", .ellipsis, .leftBracket, .rightBracket, .star, .identifier "byte",
        .rightParen, .leftParen, .leftBracket, .rightBracket, .star, .identifier "Row", .comma,
        .identifier "error", .rightParen, .endOfInput] := by
    rw [tokenize_values]
    rfl
  let o : Outline := ⟨"db", "Find",
    [[.identifier "ctx", .identifier "context", .dot, .identifier "Context"],
      [.identifier "sql", .dot, .identifier "Tx"],
      [.identifier "keys", .ellipsis, .leftBracket, .rightBracket, .star, .identifier "byte"]],
    [[.leftBracket, .rightBracket, .star, .identifier "Row"], [.identifier "error"]]⟩
  have hkeys : IsType .parameter
      [.ellipsis, .leftBracket, .rightBracket, .star, .identifier "byte"] :=
    .marked (.ellipsis rfl) (.marked .leftBracket (.marked .rightBracket (.marked .star (.name _))))
  have hslots : CommaList IsParameterSlot o.slots _ :=
    .cons (.typed "ctx" (.dotted "context" (.name "Context")))
      (.cons (.qualified "sql" (.name "Tx")) (.last (.typed "keys" hkeys)))
  have hresults : CommaList (IsType .resultList) o.results _ :=
    .cons (.marked .leftBracket (.marked .rightBracket (.marked .star (.name "Row"))))
      (.last (.name "error"))
  have hbegins : BeginsParenthesized o ((tokenize findSource).map (·.value)) := by
    rw [htokens]
    exact ⟨_, _, _, .mk "d" (.inr rfl) hslots, hresults, rfl⟩
  exact parseSignature_of_beginsParenthesized hbegins

theorem builtin_laid_out_find :
    findMethod.IsPlain IsIdentifier ∧ parseSignature findSource = .ok findMethod ∧
      ∀ template ∈ [Builtin.stub, Builtin.mock, Builtin.test], ∃ text,
        renderText findMethod template = .ok text ∧ reformatBytes text.toUTF8 = .ok text ∧
          generate findSource template true = .ok text ∧
          generate findSource template false = .ok text := by
  refine ⟨findMethod_isPlain, parseSignature_findSource, fun template htemplate => ?_⟩
  obtain ⟨text, hrender, hformat, hgenerate⟩ :=
    builtin_laid_out findMethod_isPlain template htemplate
  exact ⟨text, hrender, hformat, hgenerate findSource parseSignature_findSource⟩

end MethodSkeleton
