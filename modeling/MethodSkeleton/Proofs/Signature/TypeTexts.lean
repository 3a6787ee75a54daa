/-
# `MethodSkeleton.Proofs.Signature.TypeTexts` — reading a flattened type

The text of a type is the spellings of its tokens with nothing in between.  It can be read back all
the same (`flattened_types_read_back`): in a type two names never stand side by side, no mark is
followed by what it fuses with, and a dot fuses only with a spread mark behind it.  So the text of
a type in which no spread mark stands directly behind a dot has exactly the tokens of the type, and
no two types have one text, such marks or not (`IsType.spell_inj`).

Both go along the type.  What is used of the scanner is one fact about the first token: in front of
the text behind it, it is read as itself (`IsType.firstReads`).

The tokens that a parameter's type was built from are those of its own slot, of the slot whose type
its name waited for, or of the whole slot if there is no name (`BuiltFrom`).
-/
import Mathlib.Data.List.Infix
import MethodSkeleton.Proofs.Signature.Grouping
import MethodSkeleton.Proofs.Signature.Insertion

namespace MethodSkeleton

/-! ## One token in front of a text -/

/-- In front of `rest` the token's text is read as the token. -/
def Token.ReadsBefore (t : Token) (rest : List Char) : Prop :=
  ∃ x, StandsBefore x rest ∧ Token.ofLexeme? x = some t

namespace Token.ReadsBefore

variable {t u : Token} {rest other : List Char}

theorem tokenValues_eq (h : t.ReadsBefore rest) :
    tokenValues (t.text.toList ++ rest) = t :: tokenValues rest := by
  obtain ⟨x, hx, ht⟩ := h
  rw [Token.text_of_ofLexeme? hx ht, hx.tokenValues_eq, ht]
  rfl

/-- A text begins with one token. -/
theorem eq_of_append (ht : t.ReadsBefore rest) (hu : u.ReadsBefore other)
    (h : t.text.toList ++ rest = u.text.toList ++ other) : t = u := by
  obtain ⟨x, hx, hxt⟩ := ht
  obtain ⟨y, hy, hyu⟩ := hu
  rw [Token.text_of_ofLexeme? hx hxt, Token.text_of_ofLexeme? hy hyu] at h
  obtain rfl := hx.eq_of_append hy h
  exact Option.some.inj (hxt.symm.trans hyu)

/-- A fixed spelling is read where it does not fuse. -/
theorem fixed (kind : Kind) (text : List Char) (htext : (text, kind) ∈ punctuation)
    (hkind : kind ∉ [.newline, .lineComment, .identifier, .number, .operator])
    (ht : Token.ofLexeme? ⟨.token kind, text⟩ = some t) (h : ¬ Fuses text rest) :
    t.ReadsBefore rest := by
  simp only [List.mem_cons, List.not_mem_nil, or_false, not_or] at hkind
  obtain ⟨hnewline, hline, hword, hnumber, hoperator⟩ := hkind
  have hshielded : Shielded kind rest :=
    shielded_of_ne hline (by simp [hword, hnumber, hoperator])
  exact ⟨_, ((Spells.fixed htext).standsBefore_iff hnewline hshielded).mpr h, ht⟩

/-- So is one that ends itself. -/
theorem closed (kind : Kind) (text : List Char) (htext : (text, kind) ∈ punctuation)
    (hkind : kind ∉ [.newline, .lineComment, .identifier, .number, .operator])
    (ht : Token.ofLexeme? ⟨.token kind, text⟩ = some t) (hends : kind.endsItself = true) :
    t.ReadsBefore rest :=
  fixed kind text htext hkind ht (not_fuses_of_endsItself (.fixed htext) hends)

end Token.ReadsBefore

/-- A name is read where no word goes on. -/
theorem IsName.readsBefore {x : String} (h : IsName x) {rest : List Char}
    (hrest : rest.head?.all isShield = true) : (Token.identifier x).ReadsBefore rest := by
  have hspells : Spells .identifier x.toList := h.identifier
  refine ⟨⟨.token .identifier, x.toList⟩, ?_, ?_⟩
  · refine (hspells.standsBefore_iff (by decide) ⟨fun hk => (by cases hk), fun _ => hrest⟩).mpr ?_
    exact not_fuses_of_endsItself hspells rfl
  · show some (Token.ofWord (String.ofList x.toList)) = _
    rw [String.ofList_toList, Token.ofWord_eq_identifier_iff.mpr ⟨rfl, h.free⟩]

/-- Of the marks only the star looks at what is behind it. -/
theorem IsMark.readsBefore {context : SlotContext} {m : Token} (h : IsMark context m) {c : Char}
    {rest : List Char} (hc : c ≠ '=') : m.ReadsBefore (c :: rest) := by
  cases h with
  | star => exact .fixed .star ['*'] (by decide) (by decide) rfl (not_fuses_star hc rest)
  | leftBracket => exact .closed .leftBracket ['['] (by decide) (by decide) rfl rfl
  | rightBracket => exact .closed .rightBracket [']'] (by decide) (by decide) rfl rfl
  | ellipsis =>
      exact .closed .ellipsis ['.', '.', '.'] (by decide) (by decide) rfl rfl

theorem dot_readsBefore {c : Char} {rest : List Char} (hc : c ≠ '.') :
    Token.dot.ReadsBefore (c :: rest) :=
  .fixed .dot ['.'] (by decide) (by decide) rfl (not_fuses_dot hc rest)

/-! ## Types -/

/-- The identifiers among the tokens are names. -/
def HasNames (type : List Token) : Prop := ∀ x, .identifier x ∈ type → IsName x

theorem HasNames.of_cons {t : Token} {type : List Token} (h : HasNames (t :: type)) :
    HasNames type := fun x hx => h x (List.mem_cons_of_mem t hx)

/-- No spread mark stands directly behind a dot. -/
def NoSpreadBehindDot (type : List Token) : Prop := type.IsChain fun t u => t = .dot → u ≠ .ellipsis

instance (type : List Token) : Decidable (NoSpreadBehindDot type) :=
  inferInstanceAs (Decidable (type.IsChain _))

/-- The text alone has these tokens and then the end. -/
def HasTokens (text : String) (type : List Token) : Prop :=
  (tokenize text).map (·.value) = type ++ [.endOfInput]

instance (text : String) (type : List Token) : Decidable (HasTokens text type) :=
  inferInstanceAs (Decidable (_ = _))

theorem toList_spell_cons (t : Token) (ts : List Token) :
    (Token.spell (t :: ts)).toList = t.text.toList ++ (Token.spell ts).toList := by
  rw [Token.spell_cons, String.toList_append]

section
variable {context : SlotContext} {type : List Token}

/-- What the text of a type begins with. -/
theorem IsType.head_spell (h : IsType context type) (hnames : HasNames type) :
    ∃ c rest, (Token.spell type).toList = c :: rest ∧ c ≠ '=' ∧
      (type.head? ≠ some .ellipsis → c ≠ '.') := by
  have hname : ∀ x ts, IsName x → ∃ c rest,
      (Token.spell (.identifier x :: ts)).toList = c :: rest ∧ c ≠ '=' ∧
        ((Token.identifier x :: ts).head? ≠ some .ellipsis → c ≠ '.') := by
    intro x ts hx
    obtain ⟨c, tail, hcs, hc, _⟩ := isIdentifier_iff.mp hx.identifier
    refine ⟨c, tail ++ (Token.spell ts).toList, ?_, ?_, fun _ => ?_⟩
    · rw [toList_spell_cons, Token.text, hcs, List.cons_append]
    · rintro rfl
      exact absurd hc (by decide)
    · rintro rfl
      exact absurd hc (by decide)
  cases h with
  | name x => exact hname x [] (hnames x List.mem_cons_self)
  | dotted x h => exact hname x _ (hnames x List.mem_cons_self)
  | @marked m ts hm h =>
      rw [toList_spell_cons]
      cases hm with
      | star => exact ⟨'*', _, rfl, by decide, fun _ => by decide⟩
      | leftBracket => exact ⟨'[', _, rfl, by decide, fun _ => by decide⟩
      | rightBracket => exact ⟨']', _, rfl, by decide, fun _ => by decide⟩
      | ellipsis => exact ⟨'.', _, rfl, by decide, fun hne => absurd rfl hne⟩

/-- **The first token of a type is read** in front of the text of the others. -/
theorem IsType.firstReads (h : IsType context type) (hnames : HasNames type) {t : Token}
    {ts : List Token} (ht : type = t :: ts) : t.ReadsBefore (Token.spell ts).toList := by
  cases h with
  | name x =>
      cases ht
      exact (hnames x List.mem_cons_self).readsBefore rfl
  | dotted x h =>
      cases ht
      refine (hnames x List.mem_cons_self).readsBefore ?_
      rw [toList_spell_cons]
      rfl
  | marked hm h =>
      cases ht
      obtain ⟨c, rest, hcs, hc, _⟩ := h.head_spell hnames.of_cons
      rw [hcs]
      exact hm.readsBefore hc

/-- The tokens of the text of a type are those of the type. -/
theorem IsType.tokenValues_spell (h : IsType context type) (hnames : HasNames type)
    (hspread : NoSpreadBehindDot type) : tokenValues (Token.spell type).toList = type := by
  induction h with
  | name x =>
      have hname : IsType context [.identifier x] := .name x
      rw [toList_spell_cons, (hname.firstReads hnames rfl).tokenValues_eq]
      rfl
  | marked hm h ih =>
      rw [toList_spell_cons, ((IsType.marked hm h).firstReads hnames rfl).tokenValues_eq,
        ih hnames.of_cons hspread.of_cons]
  | @dotted x ts h ih =>
      have hfirst := (IsType.dotted x h).firstReads hnames rfl
      obtain ⟨c, rest, hcs, _, hc⟩ := h.head_spell hnames.of_cons.of_cons
      have hne : ts.head? ≠ some .ellipsis := by
        intro hhead
        obtain ⟨us, rfl⟩ := List.head?_eq_some_iff.mp hhead
        exact (List.isChain_cons_cons.mp hspread.of_cons).1 rfl rfl
      have hdot : Token.dot.ReadsBefore (Token.spell ts).toList := by
        rw [hcs]
        exact dot_readsBefore (hc hne)
      rw [toList_spell_cons, hfirst.tokenValues_eq, toList_spell_cons, hdot.tokenValues_eq,
        ih hnames.of_cons.of_cons hspread.of_cons.of_cons]

theorem IsType.hasTokens_spell (h : IsType context type) (hnames : HasNames type)
    (hspread : NoSpreadBehindDot type) : HasTokens (Token.spell type) type := by
  rw [HasTokens, tokenize_values]
  exact congrArg (· ++ [Token.endOfInput]) (h.tokenValues_spell hnames hspread)

/-- Only parameters have spread marks. -/
theorem IsType.noSpreadBehindDot (h : IsType context type) (hcontext : context ≠ .parameter) :
    NoSpreadBehindDot type := by
  have hnone : .ellipsis ∉ type := by
    induction h with
    | name x => simp
    | marked hm _ ih =>
        rintro (_ | ⟨_, hmem⟩)
        · cases hm with
          | ellipsis hparameter => exact hcontext hparameter
        · exact ih hmem
    | dotted x _ ih => simp [ih]
  refine List.Pairwise.isChain (List.pairwise_of_forall_mem_list ?_)
  rintro t _ u hu _ rfl
  exact hnone hu

/-- Every type may stand in a parameter. -/
theorem IsType.parameter (h : IsType context type) : IsType .parameter type := by
  induction h with
  | name x => exact .name x
  | marked hm _ ih =>
      refine .marked ?_ ih
      cases hm with
      | star => exact .star
      | leftBracket => exact .leftBracket
      | rightBracket => exact .rightBracket
      | ellipsis => exact .ellipsis rfl
  | dotted x _ ih => exact .dotted x ih

/-- A type whose text begins with that of another begins with its first token. -/
theorem IsType.exists_cons {t : Token} {ts : List Token} (h : IsType context (t :: ts))
    (h' : IsType context type) (hnames : HasNames (t :: ts)) (hnames' : HasNames type)
    (heq : Token.spell (t :: ts) = Token.spell type) :
    ∃ us, type = t :: us ∧ Token.spell ts = Token.spell us := by
  obtain ⟨u, us, rfl⟩ := List.exists_cons_of_ne_nil (show type ≠ [] from fun hnil =>
    not_isType_nil (hnil ▸ h'))
  have hchars := congrArg String.toList heq
  rw [toList_spell_cons, toList_spell_cons] at hchars
  obtain rfl := (h.firstReads hnames rfl).eq_of_append (h'.firstReads hnames' rfl) hchars
  exact ⟨us, rfl, String.toList_inj.mp (List.append_cancel_left hchars)⟩

/-- **No two types have one text.** -/
theorem IsType.spell_inj {type' : List Token} (h : IsType context type) (h' : IsType context type')
    (hnames : HasNames type) (hnames' : HasNames type')
    (heq : Token.spell type = Token.spell type') : type = type' := by
  induction h generalizing type' with
  | name x =>
      obtain ⟨us, rfl, hrest⟩ := (IsType.name x).exists_cons h' hnames hnames' heq
      rcases isType_identifier_iff.mp h' with rfl | ⟨vs, rfl, _⟩
      · rfl
      · exact absurd hrest.symm (MethodSkeleton.spell_ne_empty (by decide))
  | marked hm h ih =>
      obtain ⟨us, rfl, hrest⟩ := (IsType.marked hm h).exists_cons h' hnames hnames' heq
      rw [ih ((isType_mark_iff hm).mp h') hnames.of_cons hnames'.of_cons hrest]
  | dotted x h ih =>
      obtain ⟨us, rfl, hrest⟩ := (IsType.dotted x h).exists_cons h' hnames hnames' heq
      rcases isType_identifier_iff.mp h' with rfl | ⟨vs, rfl, hvs⟩
      · exact absurd hrest (MethodSkeleton.spell_ne_empty (by decide))
      · rw [Token.spell_cons, Token.spell_cons, String.append_right_inj] at hrest
        rw [ih hvs hnames.of_cons.of_cons hnames'.of_cons.of_cons hrest]

end

/-! ## The slots of parameters -/

/-- The tokens that the type of a parameter is built from: those behind the parameter's own name, or
behind the name of the next slot that has a type; of a slot that has no name of its own, all of
them. -/
inductive BuiltFrom (slots : List (List Token)) : Parameter → List Token → Prop
  | own {x : String} {type : List Token} : .identifier x :: type ∈ slots →
      IsType .parameter type → BuiltFrom slots ⟨x, Token.spell type⟩ type
  | grouped {x y : String} {type : List Token} {before between after : List (List Token)} :
      slots = before ++ [.identifier x] :: between ++ (.identifier y :: type) :: after →
      (∀ slot ∈ between, ¬ IsTypedSlot slot) → IsType .parameter type →
      BuiltFrom slots ⟨x, Token.spell type⟩ type
  | qualified {slot : List Token} : slot ∈ slots → IsQualifiedSlot slot →
      BuiltFrom slots ⟨"", Token.spell slot⟩ slot
  | unnamed {slot : List Token} : (¬ ∃ slot ∈ slots, IsTypedSlot slot) → slot ∈ slots →
      BuiltFrom slots ⟨"", Token.spell slot⟩ slot

section
variable {slots : List (List Token)} {p : Parameter} {type : List Token}

theorem BuiltFrom.type_eq (h : BuiltFrom slots p type) : p.type = Token.spell type := by
  cases h <;> rfl

/-- A slot without a type of its own is a type. -/
theorem IsParameterSlot.isType {slot : List Token} (h : IsParameterSlot slot)
    (huntyped : ¬ IsTypedSlot slot) : IsType .parameter slot := by
  cases h with
  | bare x => exact .name x
  | typed x h => exact absurd ⟨x, _, rfl, h⟩ huntyped
  | qualified x h => exact .dotted x h

/-- What a parameter's type is built from is a type, and written in one of the slots. -/
theorem BuiltFrom.isType (h : BuiltFrom slots p type)
    (hslots : ∀ slot ∈ slots, IsParameterSlot slot) :
    IsType .parameter type ∧ ∃ slot ∈ slots, type ⊆ slot := by
  cases h with
  | own hmem htype => exact ⟨htype, _, hmem, List.subset_cons_self _ _⟩
  | @grouped x y _ before between after hsplit _ htype =>
      have hmem : .identifier y :: type ∈ slots := by simp [hsplit]
      exact ⟨htype, _, hmem, List.subset_cons_self _ _⟩
  | qualified hmem hqualified =>
      obtain ⟨x, ts, rfl, htype⟩ := hqualified
      exact ⟨.dotted x htype, _, hmem, List.Subset.refl _⟩
  | unnamed huntyped hmem =>
      have htype := (hslots _ hmem).isType fun htyped => huntyped ⟨_, hmem, htyped⟩
      exact ⟨htype, _, hmem, List.Subset.refl _⟩

/-- The nearest type is that of the first slot that has one. -/
theorem exists_typed_of_typeAhead (hslots : ∀ slot ∈ slots, IsParameterSlot slot)
    (h : typeAhead slots ≠ "") : ∃ between x type after,
      slots = between ++ (.identifier x :: type) :: after ∧
        (∀ slot ∈ between, ¬ IsTypedSlot slot) ∧ IsType .parameter type ∧
        typeAhead slots = Token.spell type := by
  cases htext : slots.findSome? declaredType? with
  | none =>
      rw [typeAhead, htext] at h
      exact absurd rfl h
  | some text =>
      obtain ⟨between, slot, after, rfl, hslot, hbetween⟩ := List.findSome?_eq_some_iff.mp htext
      obtain ⟨x, type, rfl, htype, rfl⟩ := declaredType?_eq_some (hslots slot (by simp)) hslot
      have huntyped : ∀ slot ∈ between, ¬ IsTypedSlot slot := by
        intro slot hslot htyped
        have hsome := (isSome_declaredType?_iff (hslots slot (by simp [hslot]))).mpr htyped
        rw [hbetween slot hslot] at hsome
        cases hsome
      refine ⟨between, x, type, after, rfl, huntyped, htype, ?_⟩
      rw [typeAhead, htext]
      rfl

/-- A named parameter with a type has that of its own slot or of the next one with a type. -/
theorem builtFrom_of_mem_namedParameters (hslots : ∀ slot ∈ slots, IsParameterSlot slot)
    (hp : p ∈ namedParameters slots) (htype : p.type ≠ "") : ∃ type, BuiltFrom slots p type := by
  obtain ⟨ahead, hahead, hparameter⟩ := List.mem_filterMap.mp hp
  obtain ⟨x, hname, rfl⟩ := Option.map_eq_some_iff.mp hparameter
  obtain ⟨before, rfl⟩ := (List.mem_tails _ _).mp hahead
  obtain ⟨between, y, type, after, rfl, huntyped, hisType, hspell⟩ :=
    exists_typed_of_typeAhead (fun slot hslot => hslots slot (List.mem_append_right _ hslot)) htype
  refine ⟨type, ?_⟩
  rw [hspell]
  cases between with
  | nil =>
      have hx : declaredName? (.identifier y :: type) = some x := hname
      rw [declaredName?_typed hisType] at hx
      cases hx
      exact .own (by simp) hisType
  | cons slot between =>
      obtain ⟨hslot, hbetween⟩ := List.forall_mem_cons.mp huntyped
      obtain rfl := eq_bare_of_declaredName? (hslots slot (by simp)) hslot hname
      have hsplit : before ++ ([.identifier x] :: between ++ (.identifier y :: type) :: after) =
          before ++ [.identifier x] :: between ++ (.identifier y :: type) :: after :=
        (List.append_assoc ..).symm
      exact .grouped hsplit hbetween hisType

/-- **Every type comes from a slot.** -/
theorem exists_builtFrom (hslots : ∀ slot ∈ slots, IsParameterSlot slot ∧ NamesGiven slot)
    (hp : p ∈ resolveParameters (slots.map ParameterSlot.ofTokens)) (htype : p.type ≠ "") :
    ∃ type, BuiltFrom slots p type := by
  have hitems : ∀ slot ∈ slots, IsParameterSlot slot := fun slot hslot => (hslots slot hslot).1
  by_cases htyped : ∃ slot ∈ slots, IsTypedSlot slot
  · rw [resolveParameters_of_typed hitems htyped] at hp
    obtain ⟨hnamed, hunnamed⟩ := filter_groupParameters hslots (List.forall_mem_nil _)
    rw [List.map_nil, List.nil_append] at hnamed
    by_cases hname : p.name = ""
    · have hmem : p ∈ packageParameters slots :=
        hunnamed ▸ List.mem_filter.mpr ⟨hp, decide_eq_true hname⟩
      obtain ⟨slot, hslot, rfl⟩ := List.mem_map.mp hmem
      obtain ⟨hslot, hnone⟩ := List.mem_filter.mp hslot
      exact ⟨slot, .qualified hslot
        (declaredName?_eq_none (hitems slot hslot) (of_decide_eq_true hnone))⟩
    · have hmem : p ∈ namedParameters slots :=
        hnamed ▸ List.mem_filter.mpr ⟨hp, decide_eq_true hname⟩
      exact builtFrom_of_mem_namedParameters hitems hmem htype
  · rw [resolveParameters_of_untyped hitems htyped] at hp
    obtain ⟨slot, hslot, rfl⟩ := List.mem_map.mp hp
    exact ⟨slot, .unnamed htyped hslot⟩

end

/-! ## Types of a text -/

/-- A result type of a signature. -/
theorem IsSignature.forall_result {o : Outline} {us : List Token} (h : IsSignature o us) :
    ∀ type ∈ o.results,
      (∃ context, context ≠ .parameter ∧ IsType context type) ∧ ∀ t ∈ type, t ∈ us := by
  intro type hmem
  cases h with
  | parenthesized hheader hresults =>
      obtain ⟨hitem, hsub⟩ := hresults.forall_item type hmem
      exact ⟨⟨_, by decide, hitem⟩, fun t ht => by simp [hsub t ht]⟩
  | bare hheader htype he =>
      generalize hresults : o.results = results at htype hmem
      cases htype with
      | none => cases hmem
      | some htype =>
          obtain rfl := List.mem_singleton.mp hmem
          exact ⟨⟨_, by decide, htype⟩, fun t ht => by simp [ht]⟩

/-- The types that a signature writes: those of its results, and those that its parameters have. -/
inductive Outline.Writes (o : Outline) : List Token → Prop
  | result {type : List Token} : type ∈ o.results → o.Writes type
  | parameter {p : Parameter} {type : List Token} : BuiltFrom o.slots p type → o.Writes type

section
variable {source : String} {o : Outline} {type : List Token}

theorem hasNames_of_subset
    (hsub : ∀ t ∈ type, t ∈ (takenTokens (tokenize source)).map (·.value)) : HasNames type :=
  fun _ hx => isName_of_mem_tokenize
    (((takenTokens_isPrefix (tokenize source)).map (·.value)).subset (hsub _ hx))

/-- What a signature writes as a type is one, with names for identifiers. -/
theorem Outline.Writes.isType (h : o.Writes type)
    (ho : IsSignature o ((takenTokens (tokenize source)).map (·.value))) :
    IsType .parameter type ∧ HasNames type := by
  cases h with
  | result hmem =>
      obtain ⟨⟨context, _, htype⟩, hsub⟩ := ho.forall_result type hmem
      exact ⟨htype.parameter, hasNames_of_subset hsub⟩
  | parameter hbuilt =>
      obtain ⟨htype, slot, hslot, hsub⟩ :=
        hbuilt.isType fun slot hslot => (ho.forall_slot slot hslot).1
      exact ⟨htype, hasNames_of_subset fun t ht => (ho.forall_slot slot hslot).2 t (hsub ht)⟩

end

/-- **Flattened types can be read back.**  For a text that declares a method, with the slots and
result types of its signature: the text of every result is that of the result type at its index,
and alone it has exactly the tokens of that type; every parameter with a type has one built from the
slots, and alone the parameter's text has exactly those tokens, unless a spread mark stands
directly behind a dot among them; and two types, of this signature or of that of another text, have
one text only if they are one. -/
theorem flattened_types_read_back {source : String} {m : Method}
    (h : parseSignature source = .ok m) :
    (∃ o, IsSignature o ((takenTokens (tokenize source)).map (·.value))) ∧
      ∀ o, IsSignature o ((takenTokens (tokenize source)).map (·.value)) →
        List.Forall₂ (fun text type => text = Token.spell type ∧ HasTokens text type)
          m.results o.results ∧
        (∀ p ∈ m.parameters, p.type ≠ "" → (∃ type, BuiltFrom o.slots p type) ∧
          ∀ type, BuiltFrom o.slots p type →
            p.type = Token.spell type ∧ (NoSpreadBehindDot type → HasTokens p.type type)) ∧
        ∀ other o', IsSignature o' ((takenTokens (tokenize other)).map (·.value)) →
          ∀ type type', o.Writes type → o'.Writes type' →
            Token.spell type = Token.spell type' → type = type' := by
  obtain ⟨o', _, hsignature⟩ := isSignature_takenTokens h
  refine ⟨⟨o', hsignature⟩, fun o ho => ?_⟩
  have hfront := (takenTokens_isPrefix (tokenize source)).map (·.value)
  obtain rfl : m = o.method :=
    Except.ok.inj (h.symm.trans (parseSignature_of_isSignature ho hfront))
  have hslots : ∀ slot ∈ o.slots, IsParameterSlot slot ∧ NamesGiven slot := by
    intro slot hslot
    obtain ⟨hitem, hsub⟩ := ho.forall_slot slot hslot
    exact ⟨hitem, fun x hx => (hasNames_of_subset hsub x hx).identifier.ne_empty⟩
  refine ⟨?_, ?_, ?_⟩
  · show List.Forall₂ _ (o.results.map Token.spell) o.results
    rw [List.forall₂_map_left_iff, List.forall₂_same]
    intro type hmem
    obtain ⟨⟨context, hcontext, htype⟩, hsub⟩ := ho.forall_result type hmem
    exact ⟨rfl, htype.hasTokens_spell (hasNames_of_subset hsub) (htype.noSpreadBehindDot hcontext)⟩
  · intro p hp hne
    refine ⟨exists_builtFrom hslots hp hne, fun type hbuilt => ⟨hbuilt.type_eq, fun hspread => ?_⟩⟩
    obtain ⟨htype, hnames⟩ := (Outline.Writes.parameter hbuilt).isType ho
    rw [hbuilt.type_eq]
    exact htype.hasTokens_spell hnames hspread
  · intro other o' ho' type type' htype htype' heq
    obtain ⟨htype, hnames⟩ := htype.isType ho
    obtain ⟨htype', hnames'⟩ := htype'.isType ho'
    exact htype.spell_inj htype' hnames hnames' heq

/-- A grouped name, the type of a package, marks, and results in a list. -/
def spreadTypes : String := "func (d *db) F(a, b.C, c ...*x.Y) ([]e.F, error)"

/-- What its tokens say. -/
def outlineSpread : Outline where
  receiver := "db"
  name := "F"
  slots := [[.identifier "a"], [.identifier "b", .dot, .identifier "C"],
    [.identifier "c", .ellipsis, .star, .identifier "x", .dot, .identifier "Y"]]
  results := [[.leftBracket, .rightBracket, .identifier "e", .dot, .identifier "F"],
    [.identifier "error"]]

theorem isSignature_spreadTypes : ∃ us, IsSignature outlineSpread us ∧
    us <+: (tokenize spreadTypes).map (·.value) := by
  have hslots : CommaList IsParameterSlot outlineSpread.slots _ :=
    .cons (.bare "a") <| .cons (.qualified "b" (.name "C")) <|
    .last (.typed "c" (.marked (.ellipsis rfl) (.marked .star (.dotted "x" (.name "Y")))))
  have hheader : IsHeader outlineSpread _ := .mk "d" (.inr rfl) hslots
  have hresults : CommaList (IsType .resultList) outlineSpread.results _ :=
    .cons (.marked .leftBracket (.marked .rightBracket (.dotted "e" (.name "F"))))
      (.last (.name "error"))
  refine ⟨_, .parenthesized hheader hresults, ?_⟩
  rw [tokenize_values]
  exact ⟨_, rfl⟩

/-- The name `a` has the type of `c`, and the text of that type has its tokens. -/
theorem flattened_types_read_back_spreadTypes :
    let m : Method :=
      ⟨"db", "F", [⟨"", "b.C"⟩, ⟨"a", "...*x.Y"⟩, ⟨"c", "...*x.Y"⟩], ["[]e.F", "error"]⟩
    let type : List Token := [.ellipsis, .star, .identifier "x", .dot, .identifier "Y"]
    parseSignature spreadTypes = .ok m ∧
      IsSignature outlineSpread ((takenTokens (tokenize spreadTypes)).map (·.value)) ∧
      List.Forall₂ (fun text type => text = Token.spell type ∧ HasTokens text type)
        m.results outlineSpread.results ∧
      BuiltFrom outlineSpread.slots ⟨"a", "...*x.Y"⟩ type ∧ HasTokens "...*x.Y" type := by
  intro m type
  obtain ⟨us, hus, hprefix⟩ := isSignature_spreadTypes
  have hparse : parseSignature spreadTypes = .ok m := parseSignature_of_isSignature hus hprefix
  have hsignature := (hus.takenTokens_eq hprefix).symm ▸ hus
  have htype : IsType .parameter type :=
    .marked (.ellipsis rfl) (.marked .star (.dotted "x" (.name "Y")))
  have hslots : outlineSpread.slots = [] ++ [.identifier "a"] ::
      [[.identifier "b", .dot, .identifier "C"]] ++ (.identifier "c" :: type) :: [] := rfl
  have hbuilt : BuiltFrom outlineSpread.slots ⟨"a", "...*x.Y"⟩ type :=
    .grouped hslots (by simp) htype
  obtain ⟨hresults, hparameters, _⟩ :=
    (flattened_types_read_back hparse).2 outlineSpread hsignature
  have hread := (hparameters ⟨"a", "...*x.Y"⟩ (by simp [m]) (by decide)).2 type hbuilt
  exact ⟨hparse, hsignature, hresults, hbuilt, hread.2 (by decide)⟩

/-- With a spread mark behind a dot the text reads as other tokens. -/
example : HasTokens "a....b" [.identifier "a", .ellipsis, .dot, .identifier "b"] := by decide

end MethodSkeleton
