/-
# `MethodSkeleton.Proofs.Config.Documents` — which documents are configurations

A document is a configuration if it has no keys but the two that are known, each at most once and
with a value of its kind (`Configures`).  That is said of the document as a whole; the program reads
one entry after the other, and finds the configuration exactly then (`ofDocument_iff`).

What one entry does to a draft is `set?_eq_some_iff`.  A key concerns one field only, so what a list
of entries does is said field by field (`Fills`), and the induction on the list carries both fields
with the draft generalised.
-/
import MethodSkeleton.Config.Basic
import MethodSkeleton.Proofs.Registry.Contents

namespace MethodSkeleton

/-! ## Keys of a document -/

namespace Document

/-- No entry has the key. -/
def Lacks (document : Document) (key : String) : Prop := ∀ e ∈ document, e.1 ≠ key

/-- One entry has the key, and it has the value. -/
def Sets (document : Document) (key : String) (v : Value) : Prop :=
  ∃ before after, document = before ++ (key, v) :: after ∧ Lacks before key ∧ Lacks after key

section
variable {document : Document} {key : String} {v : Value} {e : String × Value}

theorem lacks_nil : Lacks [] key := List.forall_mem_nil _

theorem lacks_cons_iff : Lacks (e :: document) key ↔ e.1 ≠ key ∧ Lacks document key :=
  List.forall_mem_cons

theorem not_sets_nil : ¬ Sets [] key v := by
  rintro ⟨before, after, h, _⟩
  simp at h

theorem sets_cons_of_eq (h : e.1 = key) :
    Sets (e :: document) key v ↔ e.2 = v ∧ Lacks document key := by
  constructor
  · rintro ⟨before, after, hsplit, hbefore, hafter⟩
    cases before with
    | nil =>
        cases hsplit
        exact ⟨rfl, hafter⟩
    | cons b before =>
        cases hsplit
        exact absurd h (lacks_cons_iff.mp hbefore).1
  · rintro ⟨rfl, hlacks⟩
    exact ⟨[], document, by rw [← h]; rfl, lacks_nil, hlacks⟩

theorem sets_cons_of_ne (h : e.1 ≠ key) : Sets (e :: document) key v ↔ Sets document key v := by
  constructor
  · rintro ⟨before, after, hsplit, hbefore, hafter⟩
    cases before with
    | nil =>
        cases hsplit
        exact absurd rfl h
    | cons b before =>
        cases hsplit
        exact ⟨before, after, rfl, (lacks_cons_iff.mp hbefore).2, hafter⟩
  · rintro ⟨before, after, rfl, hbefore, hafter⟩
    exact ⟨e :: before, after, rfl, lacks_cons_iff.mpr ⟨h, hbefore⟩, hafter⟩

theorem valuesOf_cons_of_eq (h : e.1 = key) :
    valuesOf key (e :: document) = e.2 :: valuesOf key document := by
  simp [valuesOf, h]

theorem valuesOf_cons_of_ne (h : e.1 ≠ key) :
    valuesOf key (e :: document) = valuesOf key document := by
  simp [valuesOf, h]

theorem valuesOf_eq_nil_iff : valuesOf key document = [] ↔ Lacks document key := by
  simp [valuesOf, Lacks]

theorem valuesOf_eq_singleton_iff : valuesOf key document = [v] ↔ Sets document key v := by
  induction document with
  | nil => exact iff_of_false (by simp [valuesOf]) not_sets_nil
  | cons e document ih =>
      by_cases h : e.1 = key
      · rw [valuesOf_cons_of_eq h, sets_cons_of_eq h, List.cons.injEq, valuesOf_eq_nil_iff]
      · rw [valuesOf_cons_of_ne h, sets_cons_of_ne h, ih]

end

end Document

open Document

/-! ## Templates -/

/-- A value says where the text of a template is: it is the text itself, or a table with the path
of a file. -/
inductive IsSource : Document.Value → TemplateSource → Prop
  | inline (text : String) : IsSource (.text text) (.inline text)
  | file {entries : Document} {path : String} : Sets entries "path" (.text path) →
      IsSource (.table entries) (.file path)

/-- All entries say where the text of a template is, and `templates` has for each name what the last
entry for it says. -/
structure AreTemplates (entries : Document) (templates : NameMap TemplateSource) : Prop where
  described : ∀ e ∈ entries, ∃ source, IsSource e.2 source
  latest : ∀ name source, templates.get? name = some source ↔
    ∃ before v after, entries = before ++ (name, v) :: after ∧ Lacks after name ∧ IsSource v source

section
variable {entries : Document} {templates : NameMap TemplateSource}

theorem isSource_iff {v : Document.Value} {source : TemplateSource} :
    IsSource v source ↔ Config.source? v = some source := by
  constructor
  · rintro (_ | h)
    · rfl
    · rw [Config.source?, valuesOf_eq_singleton_iff.mpr h]
  · intro h
    cases v with
    | text t =>
        cases h
        exact .inline t
    | table entries =>
        rw [Config.source?] at h
        split at h
        · rename_i hvalues
          cases h
          exact .file (valuesOf_eq_singleton_iff.mp hvalues)
        · cases h
    | flag b => cases h
    | other => cases h

/-- The sources of a table are those of its entries, one by one. -/
theorem sources?_eq_some_iff : Config.sources? entries = some templates ↔
    ∃ sources, List.Forall₂ (fun e t => t.1 = e.1 ∧ IsSource e.2 t.2) entries sources ∧
      NameMap.empty.insertAll sources = templates := by
  have hmapM : ∀ {entries : Document} {sources : List (String × TemplateSource)},
      entries.mapM (fun e => (Config.source? e.2).map (e.1, ·)) = some sources ↔
        List.Forall₂ (fun e t => t.1 = e.1 ∧ IsSource e.2 t.2) entries sources := by
    intro entries
    induction entries with
    | nil => simp [eq_comm]
    | cons e entries ih =>
        intro sources
        rw [List.mapM_cons, List.forall₂_cons_left_iff]
        simp only [Option.bind_eq_bind, Option.bind_eq_some_iff, Option.map_eq_some_iff, ih,
          isSource_iff, Option.pure_def, Option.some.injEq]
        constructor
        · rintro ⟨_, ⟨source, hsource, rfl⟩, rest, hrest, rfl⟩
          exact ⟨_, rest, ⟨rfl, hsource⟩, hrest, rfl⟩
        · rintro ⟨⟨_, source⟩, rest, ⟨rfl, hsource⟩, hrest, rfl⟩
          exact ⟨_, ⟨source, hsource, rfl⟩, rest, hrest, rfl⟩
  rw [Config.sources?, Option.map_eq_some_iff]
  exact exists_congr fun sources => and_congr_left fun _ => hmapM

theorem areTemplates_of_forall₂ {sources : List (String × TemplateSource)}
    (h : List.Forall₂ (fun e t => t.1 = e.1 ∧ IsSource e.2 t.2) entries sources) :
    AreTemplates entries (NameMap.empty.insertAll sources) where
  described := by
    intro e he
    induction h with
    | nil => cases he
    | cons hfirst _ ih =>
        rcases List.mem_cons.mp he with rfl | he
        · exact ⟨_, hfirst.2⟩
        · exact ih he
  latest := by
    intro name source
    have hrel := NameMap.rel_latest? h name
    rw [NameMap.get?_insertAll, NameMap.get?_empty, Option.or_none]
    constructor
    · intro hsource
      rw [hsource] at hrel
      generalize hv : NameMap.latest? entries name = v? at hrel
      cases hrel with
      | some hdescribes =>
          obtain ⟨before, after, hsplit, hafter⟩ := NameMap.latest?_eq_some_iff.mp hv
          exact ⟨before, _, after, hsplit, hafter, hdescribes⟩
    · rintro ⟨before, v, after, hsplit, hafter, hdescribes⟩
      rw [NameMap.latest?_eq_some_iff.mpr ⟨before, after, hsplit, hafter⟩] at hrel
      generalize NameMap.latest? sources name = source? at hrel ⊢
      cases hrel with
      | some hother =>
          rw [isSource_iff] at hother hdescribes
          exact hother.symm.trans hdescribes

theorem AreTemplates.unique {templates' : NameMap TemplateSource}
    (h : AreTemplates entries templates) (h' : AreTemplates entries templates') :
    templates = templates' :=
  NameMap.ext_get? fun name => Option.ext fun source =>
    (h.latest name source).trans (h'.latest name source).symm

theorem exists_sources (h : ∀ e ∈ entries, ∃ source, IsSource e.2 source) :
    ∃ sources, List.Forall₂ (fun e t => t.1 = e.1 ∧ IsSource e.2 t.2) entries
      (sources : List (String × TemplateSource)) := by
  induction entries with
  | nil => exact ⟨[], .nil⟩
  | cons e entries ih =>
      obtain ⟨⟨source, hsource⟩, hrest⟩ := List.forall_mem_cons.mp h
      obtain ⟨sources, hsources⟩ := ih hrest
      exact ⟨(e.1, source) :: sources, .cons ⟨rfl, hsource⟩ hsources⟩

/-- **Which tables list templates.** -/
theorem areTemplates_iff :
    AreTemplates entries templates ↔ Config.sources? entries = some templates := by
  rw [sources?_eq_some_iff]
  constructor
  · intro h
    obtain ⟨sources, hsources⟩ := exists_sources h.described
    exact ⟨sources, hsources, (areTemplates_of_forall₂ hsources).unique h⟩
  · rintro ⟨sources, hsources, rfl⟩
    exact areTemplates_of_forall₂ hsources

end

/-! ## Configurations -/

/-- A document is the configuration `c`, whose paths start at `base`. -/
structure Configures (document : Document) (base : Option String) (c : Config) : Prop where
  known : ∀ e ∈ document, e.1 = "format" ∨ e.1 = "templates"
  format : Lacks document "format" ∧ c.formatted = false ∨
    Sets document "format" (.flag c.formatted)
  templates : Lacks document "templates" ∧ (∀ name, c.templates.get? name = none) ∨
    ∃ entries, Sets document "templates" (.table entries) ∧ AreTemplates entries c.templates
  base : c.base = base

/-- What the entries of a document do to a field of a draft: if none has its key, the field is left
as it is; otherwise it has been empty, one entry has the key, and it gives the field its value. -/
def Fills {α : Type} (key : String) (means : Document.Value → α → Prop) (field : Option α)
    (document : Document) (field' : Option α) : Prop :=
  Lacks document key ∧ field' = field ∨
    field = none ∧ ∃ v a, Sets document key v ∧ means v a ∧ field' = some a

section
variable {α : Type} {key : String} {means : Document.Value → α → Prop} {field field' : Option α}
  {document : Document} {e : String × Document.Value}

theorem fills_nil_iff : Fills key means field [] field' ↔ field' = field := by
  constructor
  · rintro (⟨_, h⟩ | ⟨_, v, _, h, _⟩)
    · exact h
    · exact absurd h not_sets_nil
  · exact fun h => .inl ⟨lacks_nil, h⟩

theorem fills_cons_of_ne (h : e.1 ≠ key) :
    Fills key means field (e :: document) field' ↔ Fills key means field document field' := by
  simp only [Fills, lacks_cons_iff, sets_cons_of_ne h, ne_eq, h, not_false_eq_true, true_and]

theorem fills_cons_of_eq (h : e.1 = key) : Fills key means field (e :: document) field' ↔
    field = none ∧ ∃ a, means e.2 a ∧ Fills key means (some a) document field' := by
  simp only [Fills, lacks_cons_iff, sets_cons_of_eq h, ne_eq, h, not_true_eq_false, false_and,
    false_or, reduceCtorEq, or_false]
  refine and_congr_right fun _ => ⟨?_, ?_⟩
  · rintro ⟨_, a, ⟨rfl, hlacks⟩, hmeans, hfield⟩
    exact ⟨a, hmeans, hlacks, hfield⟩
  · rintro ⟨a, hmeans, hlacks, hfield⟩
    exact ⟨_, a, ⟨rfl, hlacks⟩, hmeans, hfield⟩

end

/-- What a value means for the format. -/
def IsFlag (v : Document.Value) (b : Bool) : Prop := v = .flag b

/-- What a value means for the templates. -/
def IsTable (v : Document.Value) (templates : NameMap TemplateSource) : Prop :=
  ∃ entries, v = .table entries ∧ AreTemplates entries templates

namespace Config

/-- **One entry.** -/
theorem set?_eq_some_iff {d d' : Draft} {key : String} {v : Document.Value} :
    d.set? key v = some d' ↔
      (key = "format" ∧ d.formatted = none ∧
        ∃ b, IsFlag v b ∧ d' = { d with formatted := some b }) ∨
      (key = "templates" ∧ d.templates = none ∧
        ∃ templates, IsTable v templates ∧ d' = { d with templates := some templates }) := by
  constructor
  · intro h
    rw [Draft.set?.eq_def] at h
    split at h
    · split at h
      · rename_i hnone
        cases h
        exact .inl ⟨rfl, Option.isNone_iff_eq_none.mp hnone, _, rfl, rfl⟩
      · cases h
    · split at h
      · rename_i hnone
        obtain ⟨templates, htemplates, rfl⟩ := Option.map_eq_some_iff.mp h
        exact .inr ⟨rfl, Option.isNone_iff_eq_none.mp hnone, templates,
          ⟨_, rfl, areTemplates_iff.mpr htemplates⟩, rfl⟩
      · cases h
    · cases h
  · rintro (⟨rfl, hnone, b, rfl, rfl⟩ | ⟨rfl, hnone, templates, ⟨entries, rfl, h⟩, rfl⟩)
    · simp [Draft.set?, hnone]
    · simp [Draft.set?, hnone, areTemplates_iff.mp h]

/-- **All entries.**  The keys are known, and each field is filled by the entries with its key. -/
theorem foldlM_set?_eq_some_iff {d d' : Draft} {document : Document} :
    document.foldlM (fun d e => Draft.set? d e.1 e.2) d = some d' ↔
      (∀ e ∈ document, e.1 = "format" ∨ e.1 = "templates") ∧
        Fills "format" IsFlag d.formatted document d'.formatted ∧
        Fills "templates" IsTable d.templates document d'.templates := by
  induction document generalizing d with
  | nil =>
      obtain ⟨formatted, templates⟩ := d
      obtain ⟨formatted', templates'⟩ := d'
      simp [fills_nil_iff, eq_comm]
  | cons e document ih =>
      rw [List.foldlM_cons, List.forall_mem_cons]
      simp only [Option.bind_eq_bind, Option.bind_eq_some_iff, set?_eq_some_iff, ih]
      by_cases hformat : e.1 = "format"
      · have hother : e.1 ≠ "templates" := by simp [hformat]
        rw [fills_cons_of_eq hformat, fills_cons_of_ne hother]
        constructor
        · rintro ⟨_, ⟨_, hnone, b, hb, rfl⟩ | ⟨h, _⟩, hknown, hfills, hrest⟩
          · exact ⟨⟨.inl hformat, hknown⟩, ⟨hnone, b, hb, hfills⟩, hrest⟩
          · exact absurd h hother
        · rintro ⟨⟨_, hknown⟩, ⟨hnone, b, hb, hfills⟩, hrest⟩
          exact ⟨_, .inl ⟨hformat, hnone, b, hb, rfl⟩, hknown, hfills, hrest⟩
      · rw [fills_cons_of_ne hformat]
        by_cases htemplates : e.1 = "templates"
        · rw [fills_cons_of_eq htemplates]
          constructor
          · rintro ⟨_, ⟨h, _⟩ | ⟨_, hnone, ts, hts, rfl⟩, hknown, hrest, hfills⟩
            · exact absurd h hformat
            · exact ⟨⟨.inr htemplates, hknown⟩, hrest, hnone, ts, hts, hfills⟩
          · rintro ⟨⟨_, hknown⟩, hrest, hnone, ts, hts, hfills⟩
            exact ⟨_, .inr ⟨htemplates, hnone, ts, hts, rfl⟩, hknown, hrest, hfills⟩
        · simp [hformat, htemplates]

/-- **Which documents are configurations.** -/
theorem ofDocument_iff {base : Option String} {document : Document} {c : Config} :
    ofDocument? base document = some c ↔ Configures document base c := by
  rw [ofDocument?, Option.map_eq_some_iff]
  simp only [foldlM_set?_eq_some_iff]
  constructor
  · rintro ⟨⟨formatted, templates⟩, ⟨hknown, hformat, htemplates⟩, rfl⟩
    refine ⟨hknown, ?_, ?_, rfl⟩
    · rcases hformat with ⟨hlacks, rfl⟩ | ⟨_, _, b, hsets, rfl, rfl⟩
      · exact .inl ⟨hlacks, rfl⟩
      · exact .inr hsets
    · rcases htemplates with ⟨hlacks, rfl⟩ | ⟨_, _, ts, hsets, ⟨entries, rfl, hts⟩, rfl⟩
      · exact .inl ⟨hlacks, fun _ => rfl⟩
      · exact .inr ⟨entries, hsets, hts⟩
  · rintro ⟨hknown, hformat, htemplates, rfl⟩
    have hfills : ∃ formatted, Fills "format" IsFlag none document formatted ∧
        formatted.getD false = c.formatted := by
      rcases hformat with ⟨hlacks, hfalse⟩ | hsets
      · exact ⟨none, .inl ⟨hlacks, rfl⟩, hfalse.symm⟩
      · exact ⟨some c.formatted, .inr ⟨rfl, _, _, hsets, rfl, rfl⟩, rfl⟩
    have hlists : ∃ templates, Fills "templates" IsTable none document templates ∧
        templates.getD .empty = c.templates := by
      rcases htemplates with ⟨hlacks, hnone⟩ | ⟨entries, hsets, hts⟩
      · exact ⟨none, .inl ⟨hlacks, rfl⟩, NameMap.ext_get? fun name => (hnone name).symm⟩
      · exact ⟨some c.templates, .inr ⟨rfl, _, _, hsets, ⟨entries, rfl, hts⟩, rfl⟩, rfl⟩
    obtain ⟨formatted, hformatted, hc⟩ := hfills
    obtain ⟨templates, htemplates, hc'⟩ := hlists
    refine ⟨⟨formatted, templates⟩, ⟨hknown, hformatted, htemplates⟩, ?_⟩
    show (⟨formatted.getD false, templates.getD .empty, c.base⟩ : Config) = c
    rw [hc, hc']

end Config

end MethodSkeleton
