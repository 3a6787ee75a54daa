/-
# `MethodSkeleton.Proofs.Config.Loading` — what is read for a configuration

Which file is read for a configuration and what comes of it (`discover_iff`); which texts its
templates have and which of them is complained about (`readSources_ok_iff`,
`readSources_error_iff`).  The world is a value here: a path holds a text or has a fault, and keeps
it for the whole run.

What comes of a file is said of its bytes, of the document that the reader makes of them and of what
that document configures (`Loads`); the reader of documents is any.

The induction for the templates is on the list of their sources, and says at once that all of them
are read if it ends well, and that it ends at the first that cannot be read.
-/
import MethodSkeleton.Config.Load
import MethodSkeleton.Proofs.Config.Documents
import MethodSkeleton.Proofs.Result

namespace MethodSkeleton

/-! ## What a path holds -/

/-- The file at the path is the encoding of the text. -/
def HoldsText (files : Files Id) (path text : String) : Prop :=
  (files.read path).run = .ok text.toUTF8

/-- No text can be read at the path. -/
inductive Unreadable (files : Files Id) (path : String) : ReadFault → Prop
  | fault {why : ReadFault} : (files.read path).run = .error why → Unreadable files path why
  | noText {bytes : ByteArray} : (files.read path).run = .ok bytes →
      (∀ text : String, bytes ≠ text.toUTF8) → Unreadable files path .invalidUtf8

/-- What is read at a path. -/
def Files.text (files : Files Id) (path : String) : Except ReadFault String :=
  (files.read path).run >>= textOfBytes

theorem readText_run (files : Files Id) (path : String) :
    (files.readText path).run.run = files.text path := by
  rw [Files.readText, run_bind]
  rfl

theorem textOfBytes_ok_iff {bytes : ByteArray} {text : String} :
    textOfBytes bytes = .ok text ↔ bytes = text.toUTF8 := by
  rw [textOfBytes, decodeUtf8, ← fromUTF8?_eq_some_iff]
  cases String.fromUTF8? bytes <;> simp

theorem textOfBytes_error_iff {bytes : ByteArray} {why : ReadFault} :
    textOfBytes bytes = .error why ↔
      (∀ text : String, bytes ≠ text.toUTF8) ∧ why = .invalidUtf8 := by
  simp only [ne_eq, ← fromUTF8?_eq_some_iff]
  rw [textOfBytes, decodeUtf8]
  cases String.fromUTF8? bytes <;> simp [eq_comm]

section
variable {files : Files Id} {path : String}

theorem holdsText_iff {text : String} : HoldsText files path text ↔ files.text path = .ok text := by
  simp only [HoldsText, Files.text, bind_ok_iff, textOfBytes_ok_iff, exists_eq_right]

theorem unreadable_iff {why : ReadFault} :
    Unreadable files path why ↔ files.text path = .error why := by
  simp only [Files.text, bind_error_iff, textOfBytes_error_iff]
  constructor
  · rintro (h | ⟨h, hnone⟩)
    · exact .inl h
    · exact .inr ⟨_, h, hnone, rfl⟩
  · rintro (h | ⟨bytes, h, hnone, rfl⟩)
    · exact .fault h
    · exact .noText h hnone

theorem HoldsText.congr {files' : Files Id} {text : String} (h : HoldsText files path text)
    (hsame : files'.read path = files.read path) : HoldsText files' path text := by
  rw [HoldsText, hsame]
  exact h

theorem Unreadable.congr {files' : Files Id} {why : ReadFault} (h : Unreadable files path why)
    (hsame : files'.read path = files.read path) : Unreadable files' path why := by
  rw [unreadable_iff, Files.text, hsame]
  exact unreadable_iff.mp h

end

/-! ## The configuration -/

/-- The path of the configuration that is loaded: the one that is asked for, or else the default one
if there is a file. -/
def configPath? (files : Files Id) (asked default : Option String) : Option String :=
  asked <|> default.filter fun path => (files.isFile path).run

/-- What comes of loading the configuration at a path, or of not loading one: without a path, what
the document without entries configures. -/
inductive Loads (reader : Document.Reader) (files : Files Id) :
    Option String → Except ConfigError Config → Prop
  | nothing {c : Config} : Configures [] none c → Loads reader files none (.ok c)
  | unreadable {path : String} {why : ReadFault} : Unreadable files path why →
      Loads reader files (some path) (.error (.unreadable path why))
  | noDocument {path text reason : String} : HoldsText files path text →
      reader.read text = .error reason →
      Loads reader files (some path) (.error (.invalid ⟨path, reason⟩))
  | refused {path text : String} {document : Document} : HoldsText files path text →
      reader.read text = .ok document → (∀ c, ¬ Configures document (Path.parent? path) c) →
      Loads reader files (some path) (.error (.invalid ⟨path, reader.refusal text⟩))
  | loaded {path text : String} {document : Document} {c : Config} : HoldsText files path text →
      reader.read text = .ok document → Configures document (Path.parent? path) c →
      Loads reader files (some path) (.ok c)

section
variable {reader : Document.Reader} {files : Files Id} {path? : Option String}
  {r r' : Except ConfigError Config}

theorem load_run (reader : Document.Reader) (files : Files Id) (path : String) :
    (Config.load reader files path).run.run =
      ((files.text path).mapError (.unreadable path) >>=
        Config.read reader path (Path.parent? path)) := by
  rw [Config.load, run_bind, run_adapt, readText_run]
  rfl

theorem read_of_error {path text reason : String} {base : Option String}
    (h : reader.read text = .error reason) :
    Config.read reader path base text = .error (.invalid ⟨path, reason⟩) := by
  rw [Config.read, h]

theorem read_of_configures {path text : String} {base : Option String} {document : Document}
    {c : Config} (h : reader.read text = .ok document) (hc : Configures document base c) :
    Config.read reader path base text = .ok c := by
  rw [Config.read, h]
  simp only [Config.ofDocument_iff.mpr hc]

theorem read_of_not_configures {path text : String} {base : Option String} {document : Document}
    (h : reader.read text = .ok document) (hnone : ∀ c, ¬ Configures document base c) :
    Config.read reader path base text = .error (.invalid ⟨path, reader.refusal text⟩) := by
  have hrefused : Config.ofDocument? base document = none :=
    Option.eq_none_iff_forall_ne_some.mpr fun c hc => hnone c (Config.ofDocument_iff.mp hc)
  rw [Config.read, h]
  simp only [hrefused]

theorem loads_some_iff {path : String} :
    Loads reader files (some path) r ↔ (Config.load reader files path).run.run = r := by
  rw [load_run]
  constructor
  · rintro (_ | hwhy | ⟨htext, hread⟩ | ⟨htext, hread, hnone⟩ | ⟨htext, hread, hc⟩)
    · rw [unreadable_iff.mp hwhy]
      rfl
    · rw [holdsText_iff.mp htext]
      exact read_of_error hread
    · rw [holdsText_iff.mp htext]
      exact read_of_not_configures hread hnone
    · rw [holdsText_iff.mp htext]
      exact read_of_configures hread hc
  · rintro rfl
    cases htext : files.text path with
    | error why => exact .unreadable (unreadable_iff.mpr htext)
    | ok text =>
        have hholds := holdsText_iff.mpr htext
        rw [mapError_ok, ok_bind]
        cases hread : reader.read text with
        | error reason =>
            rw [read_of_error hread]
            exact .noDocument hholds hread
        | ok document =>
            by_cases hc : ∃ c, Configures document (Path.parent? path) c
            · obtain ⟨c, hc⟩ := hc
              rw [read_of_configures hread hc]
              exact .loaded hholds hread hc
            · rw [read_of_not_configures hread (not_exists.mp hc)]
              exact .refused hholds hread (not_exists.mp hc)

theorem loads_none_iff : Loads reader files none r ↔ .ok .empty = r := by
  constructor
  · rintro ⟨hc⟩
    exact congrArg Except.ok (Option.some.inj (Config.ofDocument_iff.mpr hc))
  · rintro rfl
    exact .nothing (Config.ofDocument_iff.mp rfl)

/-- What comes of loading a configuration depends on the file at its path only. -/
theorem Loads.congr {files' : Files Id} (h : Loads reader files path? r)
    (hsame : ∀ path, path? = some path → files'.read path = files.read path) :
    Loads reader files' path? r := by
  cases h with
  | nothing hc => exact .nothing hc
  | unreadable hwhy => exact .unreadable (hwhy.congr (hsame _ rfl))
  | noDocument htext hread => exact .noDocument (htext.congr (hsame _ rfl)) hread
  | refused htext hread hnone => exact .refused (htext.congr (hsame _ rfl)) hread hnone
  | loaded htext hread hc => exact .loaded (htext.congr (hsame _ rfl)) hread hc

/-- **Which configuration is taken.** -/
theorem discover_iff {asked default : Option String} :
    (Config.discover files asked default reader).run.run = r ↔
      Loads reader files (configPath? files asked default) r := by
  cases asked with
  | some path => exact loads_some_iff.symm
  | none =>
      cases default with
      | none => exact loads_none_iff.symm
      | some path =>
          rw [Config.discover, run_bind]
          show (if (files.isFile path).run = true then Config.load reader files path
              else pure .empty : ExceptT ConfigError Id Config).run.run = r ↔
            Loads reader files (if (files.isFile path).run = true then some path else none) r
          split
          · exact loads_some_iff.symm
          · exact loads_none_iff.symm

end

/-! ## The templates -/

namespace Config

/-- The text of a template, whether it is given in place or in a file. -/
def sourceText (files : Files Id) (c : Config) : TemplateSource → Except ReadFault String
  | .inline text => .ok text
  | .file path => files.text (c.resolve path)

section
variable {files : Files Id} {c : Config}

theorem readSource_file (name path : String) :
    (readSource files c name (.file path)).run.run =
      (files.text (c.resolve path)).mapError (.template name (c.resolve path)) := by
  rw [readSource, run_adapt, readText_run]

theorem readSource_ok_iff {name text : String} {source : TemplateSource} :
    (readSource files c name source).run.run = .ok text ↔ c.sourceText files source = .ok text := by
  cases source with
  | inline t =>
      show (.ok t : Except ConfigError String) = .ok text ↔
        (.ok t : Except ReadFault String) = .ok text
      rw [Except.ok.injEq, Except.ok.injEq]
  | file path =>
      rw [readSource_file, sourceText]
      cases files.text (c.resolve path) <;> simp

/-- Only a file can be a template that cannot be read. -/
theorem readSource_error_iff {name : String} {source : TemplateSource} {e : ConfigError} :
    (readSource files c name source).run.run = .error e ↔
      ∃ path why, source = .file path ∧ files.text (c.resolve path) = .error why ∧
        e = .template name (c.resolve path) why := by
  cases source with
  | inline t =>
      constructor
      · intro h
        cases h
      · rintro ⟨path, why, h, _⟩
        cases h
  | file path =>
      rw [readSource_file]
      cases htext : files.text (c.resolve path) with
      | error why => simp [htext, eq_comm]
      | ok text => simp [htext]

theorem readSources_cons (name : String) (source : TemplateSource)
    (rest : List (String × TemplateSource)) :
    (readSources files c ((name, source) :: rest)).run.run =
      (readSource files c name source).run.run >>= fun text =>
        ((readSources files c rest).run.run.map ((name, text) :: ·)) := by
  rw [readSources, run_bind]
  refine congrArg _ (funext fun text => ?_)
  rw [run_bind]
  cases (readSources files c rest).run.run <;> rfl

/-- All templates are read if each of them can be. -/
theorem readSources_ok_iff {entries : List (String × TemplateSource)}
    {texts : List (String × String)} :
    (readSources files c entries).run.run = .ok texts ↔
      List.Forall₂ (fun e t => t.1 = e.1 ∧ c.sourceText files e.2 = .ok t.2) entries texts := by
  induction entries generalizing texts with
  | nil =>
      rw [List.forall₂_nil_left_iff]
      constructor
      · intro h
        cases h
        rfl
      · rintro rfl
        rfl
  | cons entry rest ih =>
      obtain ⟨name, source⟩ := entry
      rw [readSources_cons, bind_ok_iff, List.forall₂_cons_left_iff]
      simp only [map_ok_iff, readSource_ok_iff, ih]
      constructor
      · rintro ⟨text, htext, texts, htexts, rfl⟩
        exact ⟨(name, text), texts, ⟨rfl, htext⟩, htexts, rfl⟩
      · rintro ⟨⟨_, text⟩, texts, ⟨rfl, htext⟩, htexts, rfl⟩
        exact ⟨text, htext, texts, htexts, rfl⟩

/-- The first template that cannot be read is the one that is complained about. -/
theorem readSources_error_iff {entries : List (String × TemplateSource)} {e : ConfigError} :
    (readSources files c entries).run.run = .error e ↔
      ∃ before name path why after, entries = before ++ (name, .file path) :: after ∧
        (∀ b ∈ before, ∃ text, c.sourceText files b.2 = .ok text) ∧
        files.text (c.resolve path) = .error why ∧
        e = .template name (c.resolve path) why := by
  induction entries with
  | nil =>
      refine iff_of_false (fun h => ?_) ?_
      · cases h
      · rintro ⟨before, name, path, why, after, h, _⟩
        simp at h
  | cons entry rest ih =>
      obtain ⟨name, source⟩ := entry
      rw [readSources_cons, bind_error_iff]
      simp only [map_error_iff, readSource_error_iff, readSource_ok_iff, ih]
      constructor
      · rintro (⟨path, why, rfl, htext, rfl⟩ | ⟨text, htext, before, n, path, why, after, hsplit⟩)
        · exact ⟨[], name, path, why, rest, rfl, by simp, htext, rfl⟩
        · obtain ⟨rfl, hbefore, hfails⟩ := hsplit
          exact ⟨(name, source) :: before, n, path, why, after, rfl,
            List.forall_mem_cons.mpr ⟨⟨text, htext⟩, hbefore⟩, hfails⟩
      · rintro ⟨before, n, path, why, after, h, hbefore, htext, rfl⟩
        cases before with
        | nil =>
            cases h
            exact .inl ⟨path, why, rfl, htext, rfl⟩
        | cons b before =>
            cases h
            obtain ⟨⟨text, hfirst⟩, hbefore⟩ := List.forall_mem_cons.mp hbefore
            exact .inr ⟨text, hfirst, before, n, path, why, after, rfl, hbefore, htext, rfl⟩

end

end Config

/-! ## The registry -/

/-- All templates of the configuration can be read, and they stand in the registry over the built-in
ones. -/
def Registered (files : Files Id) (c : Config) (r : Registry) : Prop :=
  ∃ texts, List.Forall₂ (fun e t => t.1 = e.1 ∧ c.sourceText files e.2 = .ok t.2)
    c.templates.entries texts ∧ r = Registry.builtin.insertAll texts

/-- The first template of the configuration that cannot be read, by its name, is the error. -/
def TemplateFails (files : Files Id) (c : Config) (e : ConfigError) : Prop :=
  ∃ before name path why after, c.templates.entries = before ++ (name, .file path) :: after ∧
    (∀ b ∈ before, ∃ text, c.sourceText files b.2 = .ok text) ∧
    files.text (c.resolve path) = .error why ∧ e = .template name (c.resolve path) why

theorem ofConfig_run (files : Files Id) (c : Config) :
    (Registry.ofConfig files c).run.run =
      (Config.readSources files c c.templates.entries).run.run.map Registry.builtin.insertAll := by
  rw [Registry.ofConfig, run_bind, Config.readTemplates]
  cases (Config.readSources files c c.templates.entries).run.run <;> rfl

theorem ofConfig_ok_iff {files : Files Id} {c : Config} {r : Registry} :
    (Registry.ofConfig files c).run.run = .ok r ↔ Registered files c r := by
  rw [ofConfig_run, map_ok_iff]
  exact exists_congr fun texts => and_congr Config.readSources_ok_iff eq_comm

theorem ofConfig_error_iff {files : Files Id} {c : Config} {e : ConfigError} :
    (Registry.ofConfig files c).run.run = .error e ↔ TemplateFails files c e := by
  rw [ofConfig_run, map_error_iff, Config.readSources_error_iff]
  rfl

end MethodSkeleton
