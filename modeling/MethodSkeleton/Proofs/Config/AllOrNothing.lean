/-
# `MethodSkeleton.Proofs.Config.AllOrNothing` — the registry of a configuration

A registry is made from a configuration if all its templates can be read, and then it holds them
over the built-in ones; otherwise nothing comes of it but a complaint about one template, the first
by name among those that cannot be read (`ofConfig_all_or_nothing`).

What is said here is said of the configuration as a map and of the bytes that a path holds.  The
templates are read in a list, so both halves go from a place in that list to a name: the texts are
those of their sources one by one (`latest?_texts`), and the entries in front of the one that fails
are those with smaller names.
-/
import MethodSkeleton.Proofs.Config.Loading

namespace MethodSkeleton

/-! ## What is configured -/

/-- The path at which a template's file is looked for: an absolute path is itself, another one
starts in the directory of the configuration, if that has one. -/
inductive ResolvesTo (c : Config) (path : String) : String → Prop
  | absolute : Path.isAbsolute path = true → ResolvesTo c path path
  | relative {directory : String} : Path.isAbsolute path = false → c.base = some directory →
      ResolvesTo c path (Path.join directory path)
  | undirected : Path.isAbsolute path = false → c.base = none → ResolvesTo c path path

/-- The configuration gives the text to the name. -/
inductive Gives (files : Files Id) (c : Config) (name : String) : String → Prop
  | inline {text : String} : c.templates.get? name = some (.inline text) → Gives files c name text
  | file {path resolved text : String} : c.templates.get? name = some (.file path) →
      ResolvesTo c path resolved → HoldsText files resolved text → Gives files c name text

/-- The configuration gives a file to the name that cannot be read. -/
structure Misses (files : Files Id) (c : Config) (name resolved : String) (why : ReadFault) :
    Prop where
  configured : ∃ path, c.templates.get? name = some (.file path) ∧ ResolvesTo c path resolved
  unreadable : Unreadable files resolved why

section
variable {files : Files Id} {c : Config} {name : String}

theorem resolvesTo_iff {path resolved : String} :
    ResolvesTo c path resolved ↔ resolved = c.resolve path := by
  have habsolute : ∀ directory, Path.isAbsolute path = true → Path.join directory path = path :=
    fun directory h => by rw [Path.join, if_pos (.inl h)]
  constructor
  · rintro (h | ⟨h, hbase⟩ | ⟨h, hbase⟩)
    · rw [Config.resolve]
      cases c.base with
      | none => rfl
      | some directory => exact (habsolute directory h).symm
    · rw [Config.resolve, hbase]
    · rw [Config.resolve, hbase]
  · rintro rfl
    cases hpath : Path.isAbsolute path with
    | true =>
        have hself : c.resolve path = path := by
          rw [Config.resolve]
          cases c.base with
          | none => rfl
          | some directory => exact habsolute directory hpath
        rw [hself]
        exact .absolute hpath
    | false =>
        rw [Config.resolve]
        cases hbase : c.base with
        | none => exact .undirected hpath hbase
        | some directory => exact .relative hpath hbase

/-- What a source gives is what is read for it. -/
theorem gives_iff {text : String} : Gives files c name text ↔
    ∃ source, c.templates.get? name = some source ∧ c.sourceText files source = .ok text := by
  constructor
  · rintro (h | ⟨h, hresolved, htext⟩)
    · exact ⟨_, h, rfl⟩
    · rw [resolvesTo_iff.mp hresolved] at htext
      exact ⟨_, h, holdsText_iff.mp htext⟩
  · rintro ⟨source, h, htext⟩
    cases source with
    | inline t =>
        cases htext
        exact .inline h
    | file path => exact .file h (resolvesTo_iff.mpr rfl) (holdsText_iff.mpr htext)

theorem misses_iff {resolved : String} {why : ReadFault} : Misses files c name resolved why ↔
    ∃ path, c.templates.get? name = some (.file path) ∧ resolved = c.resolve path ∧
      files.text (c.resolve path) = .error why := by
  constructor
  · rintro ⟨⟨path, h, hresolved⟩, hwhy⟩
    obtain rfl := resolvesTo_iff.mp hresolved
    exact ⟨path, h, rfl, unreadable_iff.mp hwhy⟩
  · rintro ⟨path, h, rfl, hwhy⟩
    exact ⟨⟨path, h, resolvesTo_iff.mpr rfl⟩, unreadable_iff.mpr hwhy⟩

/-- There is no text at the path of a template that cannot be read. -/
theorem Misses.not_holdsText {resolved : String} {why : ReadFault}
    (h : Misses files c name resolved why) : ∃ path, c.templates.get? name = some (.file path) ∧
      ∀ resolved text, ResolvesTo c path resolved → ¬ HoldsText files resolved text := by
  obtain ⟨path, hget, rfl, hwhy⟩ := misses_iff.mp h
  refine ⟨path, hget, fun resolved text hresolved htext => ?_⟩
  rw [resolvesTo_iff.mp hresolved, holdsText_iff, hwhy] at htext
  cases htext

/-! ## The texts that are read -/

/-- A name is put into the registry with the text of its source, and only if it has one. -/
theorem latest?_texts (name : String) {texts : List (String × String)}
    (h : List.Forall₂ (fun e t => t.1 = e.1 ∧ c.sourceText files e.2 = .ok t.2)
      c.templates.entries texts) :
    (c.templates.get? name = none ∧ NameMap.latest? texts name = none) ∨
      ∃ source text, c.templates.get? name = some source ∧
        c.sourceText files source = .ok text ∧ NameMap.latest? texts name = some text := by
  have hrel : Option.Rel (fun source text => c.sourceText files source = .ok text) _ _ :=
    NameMap.rel_latest? h name
  rw [NameMap.latest?_of_ascending c.templates.ascending, ← NameMap.get?] at hrel
  generalize c.templates.get? name = source at hrel ⊢
  generalize NameMap.latest? texts name = text at hrel ⊢
  cases hrel with
  | none => exact .inl ⟨rfl, rfl⟩
  | some htext => exact .inr ⟨_, _, rfl, htext, rfl⟩

/-! ## What comes of the configuration -/

/-- The registry holds what the configuration gives, and over it the built-in texts of other
names. -/
structure Holds (files : Files Id) (c : Config) (r : Registry) : Prop where
  found : ∀ name text, r.find name = .ok text ↔
    Gives files c name text ∨ c.templates.get? name = none ∧ builtinText? name = some text
  notFound : ∀ name, c.templates.get? name = none → builtinText? name = none →
    r.find name = .error (.notFound name)
  sorted : r.names.Pairwise BytesBefore
  names : ∀ name, name ∈ r.names ↔
    name ∈ c.templates.names ∨ name ∈ Registry.builtin.names

/-- A template that cannot be read, and none in front of it by name. -/
structure MissesFirst (files : Files Id) (c : Config) (name resolved : String) (why : ReadFault) :
    Prop where
  misses : Misses files c name resolved why
  first : ∀ other resolved' why', Misses files c other resolved' why' →
    other = name ∨ BytesBefore name other

theorem Registered.holds {r : Registry} (h : Registered files c r) : Holds files c r := by
  obtain ⟨texts, htexts, rfl⟩ := h
  have hget : ∀ name, (Registry.builtin.insertAll texts).get? name =
      (NameMap.latest? texts name).or (builtinText? name) := fun name => by
    rw [NameMap.get?_insertAll, get?_builtin]
  refine ⟨fun name text => ?_, fun name hnone hown => ?_, NameMap.pairwise_bytesBefore _,
    fun name => ?_⟩
  · rw [find_ok_iff, hget, gives_iff]
    rcases latest?_texts name htexts with ⟨hnone, hlatest⟩ | ⟨source, t, hsource, htext, hlatest⟩
    · simp [hnone, hlatest]
    · simp [hsource, hlatest, htext]
  · rw [find_error_iff, hget]
    rcases latest?_texts name htexts with ⟨_, hlatest⟩ | ⟨source, t, hsource, _⟩
    · exact ⟨by rw [hlatest, hown]; rfl, rfl⟩
    · rw [hsource] at hnone
      cases hnone
  · simp only [NameMap.mem_names_iff, hget, get?_builtin]
    rcases latest?_texts name htexts with ⟨hnone, hlatest⟩ | ⟨source, t, hsource, _, hlatest⟩
    · simp [hnone, hlatest]
    · simp [hsource, hlatest]

theorem TemplateFails.missesFirst {e : ConfigError} (h : TemplateFails files c e) :
    ∃ name resolved why, MissesFirst files c name resolved why ∧
      e = .template name resolved why := by
  obtain ⟨before, name, path, why, after, hentries, hbefore, hwhy, rfl⟩ := h
  have hmem : (name, .file path) ∈ c.templates.entries := by simp [hentries]
  have hmisses : Misses files c name (c.resolve path) why :=
    misses_iff.mpr ⟨path, (NameMap.mem_entries_iff _ _).mp hmem, rfl, hwhy⟩
  refine ⟨name, c.resolve path, why, ⟨hmisses, fun other resolved' why' hother => ?_⟩, rfl⟩
  obtain ⟨path', hget, rfl, hwhy'⟩ := misses_iff.mp hother
  have hascending := c.templates.ascending
  have hmem' := (NameMap.mem_entries_iff c.templates (other, .file path')).mpr hget
  rw [hentries] at hmem' hascending
  rcases List.mem_append.mp hmem' with hmem' | hmem'
  · obtain ⟨text, htext⟩ := hbefore _ hmem'
    have hread : files.text (c.resolve path') = .ok text := htext
    rw [hwhy'] at hread
    cases hread
  · rcases List.mem_cons.mp hmem' with heq | hmem'
    · exact .inl (congrArg Prod.fst heq)
    · have hafter := (List.pairwise_cons.mp (List.pairwise_append.mp hascending).2.1).1
      exact .inr (bytesBefore_iff.mpr (hafter _ hmem'))

/-- A registry comes of the configuration exactly if there is a text at every path in it. -/
theorem exists_registry_iff : (∃ r, (Registry.ofConfig files c).run.run = .ok r) ↔
    ∀ name path, c.templates.get? name = some (.file path) →
      ∃ resolved text, ResolvesTo c path resolved ∧ HoldsText files resolved text := by
  constructor
  · rintro ⟨r, h⟩ name path hget
    obtain ⟨texts, htexts, _⟩ := ofConfig_ok_iff.mp h
    rcases latest?_texts name htexts with ⟨hnone, _⟩ | ⟨source, text, hsource, htext, _⟩
    · rw [hget] at hnone
      cases hnone
    · rw [hget] at hsource
      cases hsource
      exact ⟨_, text, resolvesTo_iff.mpr rfl, holdsText_iff.mpr htext⟩
  · intro hall
    cases hresult : (Registry.ofConfig files c).run.run with
    | ok r => exact ⟨r, rfl⟩
    | error e =>
        obtain ⟨name, resolved, why, hfirst, _⟩ := (ofConfig_error_iff.mp hresult).missesFirst
        obtain ⟨path, hget, hnone⟩ := hfirst.misses.not_holdsText
        obtain ⟨resolved, text, hresolved, htext⟩ := hall name path hget
        exact absurd htext (hnone resolved text hresolved)

/-- Only one template is the first that cannot be read. -/
theorem MissesFirst.unique {resolved resolved' name' : String} {why why' : ReadFault}
    (h : MissesFirst files c name resolved why) (h' : MissesFirst files c name' resolved' why') :
    name = name' ∧ resolved = resolved' ∧ why = why' := by
  obtain rfl : name = name' := by
    rcases h.first _ _ _ h'.misses with rfl | hlt
    · rfl
    rcases h'.first _ _ _ h.misses with rfl | hgt
    · rfl
    · have hself := String.lt_trans (bytesBefore_iff.mp hlt) (bytesBefore_iff.mp hgt)
      exact absurd hself (String.lt_irrefl name)
  obtain ⟨path, hpath, rfl, hwhy⟩ := misses_iff.mp h.misses
  obtain ⟨path', hpath', rfl, hwhy'⟩ := misses_iff.mp h'.misses
  obtain rfl : path = path' := TemplateSource.file.inj (Option.some.inj (hpath.symm.trans hpath'))
  exact ⟨rfl, rfl, Except.error.inj (hwhy.symm.trans hwhy')⟩

/-- The first template that cannot be read is the one that is complained about. -/
theorem MissesFirst.ofConfig_eq {resolved : String} {why : ReadFault}
    (h : MissesFirst files c name resolved why) :
    (Registry.ofConfig files c).run.run = .error (.template name resolved why) := by
  cases hresult : (Registry.ofConfig files c).run.run with
  | ok r =>
      obtain ⟨path, hget, hnone⟩ := h.misses.not_holdsText
      obtain ⟨resolved, text, hresolved, htext⟩ := exists_registry_iff.mp ⟨r, hresult⟩ name path hget
      exact absurd htext (hnone resolved text hresolved)
  | error e =>
      obtain ⟨_, _, _, hfirst, rfl⟩ := (ofConfig_error_iff.mp hresult).missesFirst
      obtain ⟨rfl, rfl, rfl⟩ := h.unique hfirst
      rfl

end

/-- **Loading is all or nothing.**  Whatever the files hold: a registry comes of a configuration
exactly if at the path of every file in it there is a text; then every name has the text that the
configuration gives to it, or else the built-in one, or else none, and the names are those of the
configuration and of the built-in templates, in the order of their bytes, each once; otherwise the
complaint is about the first name, in that order, whose file cannot be read, and says its path. -/
theorem ofConfig_all_or_nothing (files : Files Id) (c : Config) :
    ((∃ r, (Registry.ofConfig files c).run.run = .ok r) ↔
      ∀ name path, c.templates.get? name = some (.file path) →
        ∃ resolved text, ResolvesTo c path resolved ∧ HoldsText files resolved text) ∧
    (∀ r, (Registry.ofConfig files c).run.run = .ok r → Holds files c r) ∧
    ∀ e, (Registry.ofConfig files c).run.run = .error e →
      ∃ name resolved why, MissesFirst files c name resolved why ∧
        e = .template name resolved why := by
  refine ⟨exists_registry_iff, fun r h => (ofConfig_ok_iff.mp h).holds,
    fun e h => (ofConfig_error_iff.mp h).missesFirst⟩

/-- Of two files that are not there, the one of the smaller name is complained about. -/
example :
    let files : Files Id := ⟨fun _ => (Except.error .notFound : Except ReadFault _), fun _ => false⟩
    let templates := NameMap.empty.insertAll [("b", .file "/y"), ("a", .file "x")]
    (Registry.ofConfig files ⟨false, templates, some "dir"⟩).run.run =
      .error (.template "a" "dir/x" .notFound) := rfl

end MethodSkeleton
