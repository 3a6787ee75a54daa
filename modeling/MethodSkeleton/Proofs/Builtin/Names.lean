/-
# `MethodSkeleton.Proofs.Builtin.Names` — which names a declaration writes twice

The stub and the mock call their receiver `r` and `m`, and a parameter without a name by its
index, and look at no name of the signature for it.  So a name may be declared twice:
`F(r int)` has it in the stub, `F(arg1 int, context.Context)` in both.

There is no other way (`declared_once_iff`): the names that are made up differ among
themselves, since the digits of an index tell it (`indexName_inj`), and from the receiver's.
-/
import MethodSkeleton.Proofs.Builtin.Texts
import MethodSkeleton.Proofs.Signature.SinglePass

namespace MethodSkeleton

namespace Method

/-- The names of the parameters as the first line writes them. -/
def writtenNames (m : Method) : List String := m.parameters.mapIdx fun i p => p.nameAt i

/-- No two parameters have the same name of their own. -/
def NamesDistinct (m : Method) : Prop :=
  m.parameters.Pairwise fun p q => p.name ≠ "" → p.name ≠ q.name

/-- A parameter has a name of its own that the declaration makes up, be it for the receiver,
which is `x`, or for a parameter that has none. -/
def NameTaken (x : String) (m : Method) : Prop :=
  ∃ p ∈ m.parameters, p.name = x ∨
    ∃ (i : Nat) (q : Parameter), m.parameters[i]? = some q ∧ q.name = "" ∧
      p.name = "arg" ++ toString i

end Method

/-! ## Names by index -/

theorem indexName_inj {i j : Nat} (h : "arg" ++ toString i = "arg" ++ toString j) : i = j := by
  have hdigits : Nat.toDigits 10 i = Nat.toDigits 10 j := by
    have hchars := congrArg String.toList h
    simpa using hchars
  have hvalue := congrArg (Nat.ofDigitChars 10 · 0) hdigits
  simpa using hvalue

/-- A name that begins otherwise is none of those by index. -/
theorem indexName_ne {x : String} (hx : x.toList.head? ≠ some 'a') (i : Nat) :
    "arg" ++ toString i ≠ x := by
  rintro rfl
  simp at hx

theorem nameAt_of_unnamed {p : Parameter} (h : p.name = "") (i : Nat) :
    p.nameAt i = "arg" ++ toString i := if_pos h

theorem nameAt_of_named {p : Parameter} (h : p.name ≠ "") (i : Nat) : p.nameAt i = p.name :=
  if_neg h

/-! ## Written names -/

section
variable {m : Method} {x : String}

theorem mem_writtenNames_iff {y : String} :
    y ∈ m.writtenNames ↔
      ∃ (i : Nat) (p : Parameter), m.parameters[i]? = some p ∧ p.nameAt i = y := by
  simp only [Method.writtenNames, List.mem_mapIdx, List.getElem?_eq_some_iff]
  constructor
  · rintro ⟨i, hi, h⟩
    exact ⟨i, _, ⟨hi, rfl⟩, h⟩
  · rintro ⟨i, p, ⟨hi, rfl⟩, h⟩
    exact ⟨i, hi, h⟩

theorem nodup_writtenNames_iff : m.writtenNames.Nodup ↔
    ∀ (i j : Nat) (p q : Parameter), m.parameters[i]? = some p → m.parameters[j]? = some q →
      i < j → p.nameAt i ≠ q.nameAt j := by
  rw [List.Nodup, List.pairwise_iff_getElem]
  simp only [Method.writtenNames, List.length_mapIdx, List.getElem_mapIdx,
    List.getElem?_eq_some_iff]
  constructor
  · rintro h i j p q ⟨hi, rfl⟩ ⟨hj, rfl⟩ hij
    exact h i j hi hj hij
  · intro h i j hi hj hij
    exact h i j _ _ ⟨hi, rfl⟩ ⟨hj, rfl⟩ hij

/-- Two parameters are declared by one name only if one of them has none and the other is
called by its index. -/
theorem taken_of_nameAt_eq {i j : Nat} {p q : Parameter} (hi : m.parameters[i]? = some p)
    (hj : m.parameters[j]? = some q) (hij : i ≠ j) (hpq : p.name ≠ "" → p.name ≠ q.name)
    (h : p.nameAt i = q.nameAt j) : m.NameTaken x := by
  by_cases hp : p.name = ""
  · rw [nameAt_of_unnamed hp] at h
    by_cases hq : q.name = ""
    · rw [nameAt_of_unnamed hq] at h
      exact absurd (indexName_inj h) hij
    · rw [nameAt_of_named hq] at h
      exact ⟨q, List.mem_of_getElem? hj, .inr ⟨i, p, hi, hp, h.symm⟩⟩
  · rw [nameAt_of_named hp] at h
    by_cases hq : q.name = ""
    · rw [nameAt_of_unnamed hq] at h
      exact ⟨p, List.mem_of_getElem? hi, .inr ⟨j, q, hj, hq, h⟩⟩
    · rw [nameAt_of_named hq] at h
      exact absurd h (hpq hp)

theorem not_mem_writtenNames (hx : x.toList.head? ≠ some 'a') (h : ¬ m.NameTaken x) :
    x ∉ m.writtenNames := by
  intro hmem
  obtain ⟨i, p, hp, hname⟩ := mem_writtenNames_iff.mp hmem
  by_cases hempty : p.name = ""
  · rw [nameAt_of_unnamed hempty] at hname
    exact indexName_ne hx i hname
  · rw [nameAt_of_named hempty] at hname
    exact h ⟨p, List.mem_of_getElem? hp, .inl hname⟩

/-- A name that is taken is written twice. -/
theorem not_nodup_of_taken (hx : x ≠ "") (h : m.NameTaken x) : ¬ (x :: m.writtenNames).Nodup := by
  intro hnodup
  obtain ⟨hmem, hnames⟩ := List.nodup_cons.mp hnodup
  obtain ⟨p, hp, htaken⟩ := h
  obtain ⟨j, hj⟩ := List.mem_iff_getElem?.mp hp
  rcases htaken with hname | ⟨i, q, hi, hq, hname⟩
  · have hne : p.name ≠ "" := by rwa [hname]
    exact hmem (mem_writtenNames_iff.mpr ⟨j, p, hj, (nameAt_of_named hne j).trans hname⟩)
  · have hne : p.name ≠ "" := by
      rw [hname]
      exact indexName_ne (by simp) i
    have hsame : p.nameAt j = q.nameAt i := by
      rw [nameAt_of_named hne, nameAt_of_unnamed hq, hname]
    have hij : i ≠ j := by
      rintro rfl
      rw [hi, Option.some_inj] at hj
      rw [hj] at hq
      exact hne hq
    rcases Nat.lt_or_gt_of_ne hij with hlt | hlt
    · exact nodup_writtenNames_iff.mp hnames i j q p hi hj hlt hsame.symm
    · exact nodup_writtenNames_iff.mp hnames j i p q hj hi hlt hsame

/-- The receiver and the parameters are declared once each unless a made-up name is taken. -/
theorem nodup_declared_iff (hx : x.toList.head? ≠ some 'a') (hne : x ≠ "")
    (h : m.NamesDistinct) : (x :: m.writtenNames).Nodup ↔ ¬ m.NameTaken x := by
  constructor
  · exact fun hnodup htaken => not_nodup_of_taken hne htaken hnodup
  · intro hfree
    refine List.nodup_cons.mpr ⟨not_mem_writtenNames hx hfree, nodup_writtenNames_iff.mpr ?_⟩
    intro i j p q hi hj hij hsame
    obtain ⟨hi', rfl⟩ := List.getElem?_eq_some_iff.mp hi
    obtain ⟨hj', rfl⟩ := List.getElem?_eq_some_iff.mp hj
    exact hfree (taken_of_nameAt_eq hi hj (Nat.ne_of_lt hij)
      (List.pairwise_iff_getElem.mp h i j hi' hj' hij) hsame)

end

/-! ## The declarations -/

/-- **When a declaration names everything once.**  A signature whose parameters have different
names of their own is declared by the stub and by the mock.  The first line of each declares
the receiver and the parameters under different names exactly if no parameter has the
receiver's name, or the name by index of one that has none. -/
theorem declared_once_iff {source : String} {m : Method} (hm : parseSignature source = .ok m)
    (h : m.NamesDistinct) :
    (∃ body, generate source Builtin.stub false = .ok (m.signatureLine "r" m.receiver ++ body) ∧
      (("r" :: m.writtenNames).Nodup ↔ ¬ m.NameTaken "r")) ∧
    ∃ body, generate source Builtin.mock false =
        .ok (m.signatureLine "m" (m.receiver ++ "Mock") ++ body) ∧
      (("m" :: m.writtenNames).Nodup ↔ ¬ m.NameTaken "m") := by
  refine ⟨⟨_, generate_of_renderText hm (Builtin.renderText_stub m), ?_⟩,
    _, generate_of_renderText hm (Builtin.renderText_mock m), ?_⟩
  · exact nodup_declared_iff (by decide) (by decide) h
  · exact nodup_declared_iff (by decide) (by decide) h

/-- A parameter with the name by index of the one behind it, which has none. -/
def indexNameTaken : Method :=
  ⟨"db", "F", [⟨"arg1", "int"⟩, ⟨"", "context.Context"⟩], ["error"]⟩

theorem parseSignature_indexNameTaken :
    parseSignature "func (d *db) F(arg1 int, context.Context) error" = .ok indexNameTaken := by
  have htokens : (tokenize "func (d *db) F(arg1 int, context.Context) error").map (·.value) =
      [.func, .leftParen, .identifier "d", .star, .identifier "db", .rightParen, .identifier "F",
        .leftParen, .identifier "arg1", .identifier "int", .comma, .identifier "context", .dot,
        .identifier "Context", .rightParen, .identifier "error", .endOfInput] := by
    rw [tokenize_values]
    rfl
  let o : Outline := ⟨"db", "F", [[.identifier "arg1", .identifier "int"],
    [.identifier "context", .dot, .identifier "Context"]], [[.identifier "error"]]⟩
  have hslots : CommaList IsParameterSlot o.slots _ :=
    .cons (.typed "arg1" (.name "int")) (.last (.qualified "context" (.name "Context")))
  have hbegins : BeginsBare o
      ((tokenize "func (d *db) F(arg1 int, context.Context) error").map (·.value)) := by
    rw [htokens]
    exact ⟨_, _, _, .mk "d" (.inr rfl) hslots, .some (.name "error"), .inr (.inr ⟨_, rfl⟩), rfl⟩
  exact parseSignature_of_beginsBare hbegins

theorem indexNameTaken_distinct : indexNameTaken.NamesDistinct := by
  simp [Method.NamesDistinct, indexNameTaken]

theorem declared_once_iff_indexNameTaken :
    parseSignature "func (d *db) F(arg1 int, context.Context) error" = .ok indexNameTaken ∧
      indexNameTaken.NamesDistinct ∧
      (∃ body, generate "func (d *db) F(arg1 int, context.Context) error" Builtin.stub false =
          .ok ("func (r *db) F(arg1 int, arg1 context.Context) error \x7b\n" ++ body) ∧
        (["r", "arg1", "arg1"].Nodup ↔ ¬ indexNameTaken.NameTaken "r")) ∧
      ∃ body, generate "func (d *db) F(arg1 int, context.Context) error" Builtin.mock false =
          .ok ("func (m *dbMock) F(arg1 int, arg1 context.Context) error \x7b\n" ++ body) ∧
        (["m", "arg1", "arg1"].Nodup ↔ ¬ indexNameTaken.NameTaken "m") :=
  ⟨parseSignature_indexNameTaken, indexNameTaken_distinct,
    declared_once_iff parseSignature_indexNameTaken indexNameTaken_distinct⟩

/-- Distinct names of their own do not keep the declarations from writing one of them twice. -/
theorem not_declared_once : ¬ ∀ source m, parseSignature source = .ok m → m.NamesDistinct →
    ("r" :: m.writtenNames).Nodup ∧ ("m" :: m.writtenNames).Nodup := by
  intro h
  have hnodup := (h _ _ parseSignature_indexNameTaken indexNameTaken_distinct).1
  have htwice : ¬ ("r" :: indexNameTaken.writtenNames).Nodup := by decide
  exact htwice hnodup

end MethodSkeleton
