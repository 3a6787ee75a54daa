/-
# `MethodSkeleton.Proofs.Builtin.RoundTrip` — reading back what was declared

The stub and the mock of a plain method begin with a signature, and reading their text as a
signature gives the method again, with every parameter named (`parse_stub_mock`).

The text is cut into the tokens that its page was set from, so of the page only the first row
matters, and of that row which tokens its parts are (`Declaration.tokens_signaturePieces`).
With no result or one the tokens have the bare shape, with more the one in parentheses.
-/
import MethodSkeleton.Proofs.Builtin.Pages
import MethodSkeleton.Proofs.Signature.Coverage
import MethodSkeleton.Proofs.Signature.SinglePass

namespace MethodSkeleton

open SetPiece (of ofWord ofWords commaList)

/-! ## The tokens of the parts -/

/-- The tokens of a row as a signature sees them. -/
def SetPiece.tokens (xs : List SetPiece) : List Token :=
  xs.filterMap fun x => Token.ofLexeme? x.lexeme

@[simp] theorem SetPiece.tokens_append (xs ys : List SetPiece) :
    tokens (xs ++ ys) = tokens xs ++ tokens ys := List.filterMap_append

theorem SetPiece.tokens_ofWord {spaced : Bool} {x : String} (h : IsName x) :
    tokens [ofWord spaced x] = [.identifier x] := by
  show [Token.ofWord (String.ofList x.toList)] = _
  rw [String.ofList_toList, Token.ofWord_eq_identifier_iff.mpr ⟨rfl, h.free⟩]

theorem SetPiece.tokens_ofWords {spaced : Bool} {x : String} {xs : List String} (hx : IsName x)
    (hxs : ∀ y ∈ xs, IsName y) : tokens (ofWords spaced (x :: xs)) =
      .identifier x :: xs.flatMap fun y => [.dot, .identifier y] := by
  have htail : tokens (xs.flatMap fun y => [of false .dot ['.'], ofWord false y]) =
      xs.flatMap fun y => [.dot, .identifier y] := by
    induction xs with
    | nil => rfl
    | cons y ys ih =>
        obtain ⟨hy, hys⟩ := List.forall_mem_cons.mp hxs
        rw [List.flatMap_cons, tokens_append, ih hys, List.flatMap_cons]
        congr 1
        exact congrArg (Token.dot :: ·) (tokens_ofWord hy)
  have hcons : ofWords spaced (x :: xs) =
      [ofWord spaced x] ++ xs.flatMap fun y => [of false .dot ['.'], ofWord false y] := rfl
  rw [hcons, tokens_append, tokens_ofWord hx, htail]
  rfl

namespace PlainType

def tokens : PlainType → List Token
  | words first more => .identifier first :: more.flatMap fun y => [.dot, .identifier y]
  | pointer t => .star :: t.tokens
  | slice t => .leftBracket :: .rightBracket :: t.tokens

variable {t : PlainType}

theorem tokens_pieces (h : t.Over IsName) (spaced : Bool) :
    SetPiece.tokens (t.pieces spaced) = t.tokens := by
  induction t generalizing spaced with
  | words first more => exact SetPiece.tokens_ofWords h.1 h.2
  | pointer t ih => exact congrArg (Token.star :: ·) (ih h false)
  | slice t ih => exact congrArg (Token.leftBracket :: Token.rightBracket :: ·) (ih h false)

theorem isType_tokens (context : SlotContext) (t : PlainType) : IsType context t.tokens := by
  induction t with
  | words first more =>
      induction more generalizing first with
      | nil => exact .name first
      | cons y ys ih => exact .dotted first (ih y)
  | pointer t ih => exact .marked .star ih
  | slice t ih => exact .marked .leftBracket (.marked .rightBracket ih)

theorem spell_tokens (t : PlainType) : Token.spell t.tokens = t.text := by
  induction t with
  | words first more =>
      rw [tokens, text, Token.spell_cons]
      congr 1
      induction more with
      | nil => rfl
      | cons y ys ih =>
          rw [List.map_cons, String.join_cons, ← ih, String.append_assoc]
          exact (Token.spell_cons .dot _).trans (congrArg ("." ++ ·) (Token.spell_cons _ _))
  | pointer t ih =>
      rw [tokens, text, ← ih]
      exact Token.spell_cons .star _
  | slice t ih =>
      rw [tokens, text, ← ih, Token.spell_cons, Token.spell_cons, ← String.append_assoc]
      rfl

end PlainType

namespace ParameterType

def tokens (t : ParameterType) : List Token :=
  if t.spread then .ellipsis :: t.type.tokens else t.type.tokens

variable {t : ParameterType}

theorem tokens_pieces (h : t.Over IsName) : SetPiece.tokens t.pieces = t.tokens := by
  rw [pieces, tokens]
  cases t.spread with
  | false => exact t.type.tokens_pieces h true
  | true => exact congrArg (Token.ellipsis :: ·) (t.type.tokens_pieces h false)

theorem isType_tokens (t : ParameterType) : IsType .parameter t.tokens := by
  rw [tokens]
  cases t.spread with
  | false => exact t.type.isType_tokens .parameter
  | true => exact .marked (.ellipsis rfl) (t.type.isType_tokens .parameter)

theorem spell_tokens (t : ParameterType) : Token.spell t.tokens = t.text := by
  rw [tokens, text]
  cases t.spread with
  | false => exact t.type.spell_tokens
  | true =>
      rw [if_pos rfl, if_pos rfl, ← t.type.spell_tokens]
      exact Token.spell_cons .ellipsis _

end ParameterType

namespace NamedParameter

def tokens (p : NamedParameter) : List Token := .identifier p.name :: p.type.tokens

variable {p : NamedParameter}

theorem tokens_pieces (hname : IsName p.name) (ht : p.type.Over IsName) (spaced : Bool) :
    SetPiece.tokens (p.pieces spaced) = p.tokens := by
  have hcons : p.pieces spaced = [ofWord spaced p.name] ++ p.type.pieces := rfl
  rw [hcons, SetPiece.tokens_append, SetPiece.tokens_ofWord hname, p.type.tokens_pieces ht]
  rfl

theorem isParameterSlot_tokens (p : NamedParameter) : IsParameterSlot p.tokens :=
  .typed p.name p.type.isType_tokens

/-- A parameter that is declared is read as one with a name and a type. -/
theorem ofTokens_tokens (p : NamedParameter) :
    ParameterSlot.ofTokens p.tokens = .typed p.name p.type.tokens := by
  obtain ⟨name, spread, type⟩ := p
  cases spread with
  | true => rfl
  | false => cases type <;> rfl

end NamedParameter

/-- Parameters that all have names are grouped with none of the others. -/
theorem groupParameters_tokens (ps : List NamedParameter) :
    groupParameters [] (ps.map fun p => .typed p.name p.type.tokens) =
      ps.map NamedParameter.parameter := by
  induction ps with
  | nil => rfl
  | cons p ps ih =>
      rw [List.map_cons, groupParameters, ih, ParameterType.spell_tokens]
      rfl

theorem resolveParameters_tokens (ps : List NamedParameter) :
    resolveParameters (ps.map fun p => .typed p.name p.type.tokens) =
      ps.map NamedParameter.parameter := by
  rw [resolveParameters]
  cases ps with
  | nil => rfl
  | cons p ps => exact groupParameters_tokens (p :: ps)

/-! ## Lists -/

/-- Items with commas between them. -/
def commaTokens : List (List Token) → List Token
  | [] => []
  | item :: items => item ++ items.flatMap (.comma :: ·)

theorem commaList_commaTokens {Item : List Token → Prop} {items : List (List Token)}
    (h : ∀ item ∈ items, Item item) : CommaList Item items (commaTokens items) := by
  induction items with
  | nil => exact .nil
  | cons item items ih =>
      obtain ⟨hitem, hitems⟩ := List.forall_mem_cons.mp h
      cases items with
      | nil =>
          rw [commaTokens, List.flatMap_nil, List.append_nil]
          exact .last hitem
      | cons next items => exact .cons hitem (ih hitems)

theorem SetPiece.tokens_commaList {α : Type} {pieces : Bool → α → List SetPiece}
    {item : α → List Token} {as : List α}
    (h : ∀ a ∈ as, ∀ spaced, tokens (pieces spaced a) = item a) :
    tokens (commaList pieces as) = commaTokens (as.map item) := by
  cases as with
  | nil => rfl
  | cons a as =>
      obtain ⟨ha, has⟩ := List.forall_mem_cons.mp h
      rw [commaList, tokens_append, ha, List.map_cons, commaTokens, List.flatMap_map]
      congr 1
      clear ha h
      induction as with
      | nil => rfl
      | cons b bs ih =>
          obtain ⟨hb, hbs⟩ := List.forall_mem_cons.mp has
          rw [List.flatMap_cons, tokens_append, ih hbs, List.flatMap_cons]
          exact congrArg (Token.comma :: · ++ _) (hb true)

/-! ## Signatures -/

namespace Declaration

variable {d : Declaration} {x receiver : String}

/-- What the first line of a declaration says. -/
def outline (d : Declaration) (receiver : String) : Outline where
  receiver := receiver
  name := d.name
  slots := d.parameters.map NamedParameter.tokens
  results := d.results.map PlainType.tokens

theorem method_outline (d : Declaration) (receiver : String) :
    (d.outline receiver).method = { d.method with receiver := receiver } := by
  have hparameters : resolveParameters ((d.parameters.map NamedParameter.tokens).map
      ParameterSlot.ofTokens) = d.parameters.map NamedParameter.parameter := by
    rw [List.map_map, ← resolveParameters_tokens]
    exact congrArg resolveParameters (List.map_congr_left fun p _ => p.ofTokens_tokens)
  have hresults : (d.results.map PlainType.tokens).map Token.spell =
      d.results.map PlainType.text := by
    rw [List.map_map]
    exact List.map_congr_left fun t _ => t.spell_tokens
  rw [Outline.method, outline, hparameters, hresults]
  rfl

/-- The tokens in front of the results. -/
def headerTokens (x receiver : String) (d : Declaration) : List Token :=
  .func :: .leftParen :: .identifier x :: [.star] ++ .identifier receiver :: .rightParen ::
    .identifier d.name :: .leftParen :: commaTokens (d.parameters.map NamedParameter.tokens) ++
      [.rightParen]

theorem isHeader_headerTokens (x receiver : String) (d : Declaration) :
    IsHeader (d.outline receiver) (d.headerTokens x receiver) := by
  refine .mk x (.inr rfl) (commaList_commaTokens (List.forall_mem_map.mpr ?_))
  exact fun p _ => p.isParameterSlot_tokens

theorem tokens_signaturePieces (h : d.Over IsName) (hx : IsName x) (hr : IsName receiver) :
    SetPiece.tokens (d.signaturePieces x receiver) =
      d.headerTokens x receiver ++ (SetPiece.tokens d.resultPieces ++ [.leftBrace]) := by
  have hparameters : SetPiece.tokens (commaList NamedParameter.pieces d.parameters) =
      commaTokens (d.parameters.map NamedParameter.tokens) :=
    SetPiece.tokens_commaList fun p hp spaced =>
      p.tokens_pieces (h.parameterName p hp) (h.parameterType p hp) spaced
  have hreceiver :
      SetPiece.tokens (commaList NamedParameter.pieces [receiverParameter x receiver]) =
        commaTokens [(receiverParameter x receiver).tokens] := by
    have htype : (receiverParameter x receiver).type.Over IsName := ⟨hr, by simp⟩
    exact SetPiece.tokens_commaList (List.forall_mem_singleton.mpr fun spaced =>
      NamedParameter.tokens_pieces hx htype spaced)
  simp only [signaturePieces, SetPiece.tokens_append, hparameters, hreceiver,
    SetPiece.tokens_ofWord h.name, headerTokens, List.append_assoc]
  rfl

/-- The first line of a declaration has one of the two shapes of a signature, whatever
follows. -/
theorem begins_signature (h : d.Over IsName) (hx : IsName x) (hr : IsName receiver)
    (rest : List Token) :
    BeginsBare (d.outline receiver) (SetPiece.tokens (d.signaturePieces x receiver) ++ rest) ∨
      BeginsParenthesized (d.outline receiver)
        (SetPiece.tokens (d.signaturePieces x receiver) ++ rest) := by
  have hheader := d.isHeader_headerTokens x receiver
  have hends : EndsBareResult (.leftBrace :: rest) := .inr (.inl ⟨rest, rfl⟩)
  rw [tokens_signaturePieces h hx hr, resultPieces]
  simp only [List.append_assoc]
  split
  · rename_i hresults
    refine .inl ⟨_, [], _, hheader, ?_, hends, ?_⟩
    · rw [outline, hresults]
      exact .none
    · rw [List.append_nil]
      rfl
  · rename_i t hresults
    refine .inl ⟨_, t.tokens, _, hheader, ?_, hends, ?_⟩
    · rw [outline, hresults]
      exact .some (t.isType_tokens .resultType)
    · rw [t.tokens_pieces (h.result t (by simp [hresults])) true, List.append_assoc]
      rfl
  · have hlist : SetPiece.tokens (commaList PlainType.pieces d.results) =
        commaTokens (d.results.map PlainType.tokens) :=
      SetPiece.tokens_commaList fun t ht spaced => t.tokens_pieces (h.result t ht) spaced
    refine .inr ⟨_, commaTokens (d.results.map PlainType.tokens), .leftBrace :: rest, hheader,
      ?_, ?_⟩
    · refine commaList_commaTokens (List.forall_mem_map.mpr ?_)
      exact fun t _ => t.isType_tokens .resultList
    · have hparenthesized : SetPiece.tokens (of true .leftParen ['('] ::
          (commaList PlainType.pieces d.results ++ [of false .rightParen [')']])) =
            .leftParen :: (commaTokens (d.results.map PlainType.tokens) ++ [.rightParen]) := by
        show Token.leftParen :: SetPiece.tokens (_ ++ _) = _
        rw [SetPiece.tokens_append, hlist]
        rfl
      rw [hparenthesized]
      simp

/-- The tokens of a text that a page spells begin with those of its first row. -/
theorem tokenize_page {r : SetRow} {rows : List SetRow} {text : String}
    (h : AllSettled [] (r :: rows) []) (htext : (r :: rows).flatMap SetRow.text = text.toList) :
    ∃ rest, (tokenize text).map (·.value) = SetPiece.tokens r.pieces ++ rest := by
  have hpieces : ∀ xs : List SetPiece,
      (xs.flatMap SetPiece.lexemes).filterMap Token.ofLexeme? = SetPiece.tokens xs := by
    intro xs
    induction xs with
    | nil => rfl
    | cons x xs ih =>
        have hcons : SetPiece.tokens (x :: xs) = SetPiece.tokens [x] ++ SetPiece.tokens xs :=
          SetPiece.tokens_append [x] xs
        rw [List.flatMap_cons, List.filterMap_append, ih, hcons, SetPiece.lexemes]
        split <;> rfl
  have hrow : r.lexemes.filterMap Token.ofLexeme? = SetPiece.tokens r.pieces := by
    rw [SetRow.lexemes, List.filterMap_append, hpieces, indentLexemes]
    split <;> rfl
  refine ⟨(belowLexemes true rows).filterMap Token.ofLexeme? ++ [.endOfInput], ?_⟩
  rw [tokenize_values, ← htext, ← h.pageText_eq, h.lexemes_eq, pageLexemes, List.filterMap_append,
    hrow, List.append_assoc]

/-- A page that begins with the first line of a declaration declares its method. -/
theorem parseSignature_page (h : d.Over IsName) (hx : IsName x) (hr : IsName receiver)
    {rows : List SetRow} {text : String}
    (hpage : AllSettled [] (.of 0 (d.signaturePieces x receiver) :: rows) [])
    (htext : (SetRow.of 0 (d.signaturePieces x receiver) :: rows).flatMap SetRow.text =
      text.toList) :
    parseSignature text = .ok { d.method with receiver := receiver } := by
  obtain ⟨rest, htokens⟩ := tokenize_page hpage htext
  rw [← d.method_outline receiver]
  rcases begins_signature h hx hr rest with hbare | hparenthesized
  · exact parseSignature_of_beginsBare (htokens ▸ hbare)
  · exact parseSignature_of_beginsParenthesized (htokens ▸ hparenthesized)

end Declaration

/-- **The stub and the mock declare their signature.**  For every plain method whose types are
made of names both are rendered, and read as a signature the text of the stub gives the method
with its parameters named; the mock's gives the same on the receiver's mock. -/
theorem parse_stub_mock {m : Method} (h : m.IsPlain IsName) :
    (∃ text, renderText m Builtin.stub = .ok text ∧ parseSignature text = .ok m.named) ∧
      ∃ text, renderText m Builtin.mock = .ok text ∧
        parseSignature text = .ok { m.named with receiver := m.receiver ++ "Mock" } := by
  obtain ⟨d, hnames, hd⟩ := h.exists_declaration
  have hover : d.Over IsIdentifier := hnames.mono fun _ hx => hx.identifier
  have hmock : IsName (d.receiver ++ "Mock") := Declaration.isName_mock hnames.receiver
  have hstub : m.named = { d.method with receiver := d.receiver } := hd.symm
  refine ⟨⟨_, Builtin.renderText_stub m, ?_⟩, _, Builtin.renderText_mock m, ?_⟩
  · rw [hstub]
    exact Declaration.parseSignature_page hnames (by decide) hnames.receiver
      (Declaration.settled_stub hover) (Declaration.text_stub hd)
  · rw [← hd, Declaration.receiver_eq hd]
    exact Declaration.parseSignature_page hnames (by decide) hmock
      (Declaration.settled_mock hover) (Declaration.text_mock hd hover)

/-- A method with a parameter that has no name, and a variadic one. -/
def execMethod : Method :=
  ⟨"db", "Exec", [⟨"", "[]*sql.Tx"⟩, ⟨"keys", "...any"⟩], ["sql.Result", "error"]⟩

theorem execMethod_isPlain : execMethod.IsPlain IsName := by
  refine ⟨by decide, by decide, ?_, ?_⟩
  · refine List.forall_mem_cons.mpr ⟨⟨.inl rfl, ?_⟩,
      List.forall_mem_singleton.mpr ⟨.inr (by decide), ?_⟩⟩
    · exact ⟨⟨false, .slice (.pointer (.words "sql" ["Tx"]))⟩, ⟨by decide, by decide⟩, by decide⟩
    · exact ⟨⟨true, .words "any" []⟩, ⟨by decide, by decide⟩, by decide⟩
  · refine List.forall_mem_cons.mpr ⟨?_, List.forall_mem_singleton.mpr ?_⟩
    · exact ⟨.words "sql" ["Result"], ⟨by decide, by decide⟩, by decide⟩
    · exact ⟨.words "error" [], ⟨by decide, by decide⟩, by decide⟩

theorem parse_stub_mock_exec :
    execMethod.IsPlain IsName ∧
      (∃ text, renderText execMethod Builtin.stub = .ok text ∧ parseSignature text =
        .ok ⟨"db", "Exec", [⟨"arg0", "[]*sql.Tx"⟩, ⟨"keys", "...any"⟩], ["sql.Result", "error"]⟩) ∧
      ∃ text, renderText execMethod Builtin.mock = .ok text ∧ parseSignature text =
        .ok ⟨"dbMock", "Exec", [⟨"arg0", "[]*sql.Tx"⟩, ⟨"keys", "...any"⟩],
          ["sql.Result", "error"]⟩ :=
  ⟨execMethod_isPlain, parse_stub_mock execMethod_isPlain⟩

end MethodSkeleton
