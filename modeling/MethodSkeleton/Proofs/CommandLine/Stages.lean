/-
# `MethodSkeleton.Proofs.CommandLine.Stages` — the first stage that fails

Every run prints something or stops at a stage, and that is all that is left of it
(`runProgram_stages`): the text and nothing else, or one report and no text.

That a report says nothing about later stages is a statement about two runs.  It is a case split on
the stage where the first run stops: `SameUpTo` gives the second run the same answers for everything
that this stage and those in front of it ask for, so the second run stops there too, and for the
same reason (`StopsAt.of_same`).  What later stages ask for may be anything.
-/
import MethodSkeleton.Proofs.CommandLine.Outcomes

namespace MethodSkeleton

/-! ## Two runs -/

/-- What a stage asks of the command line and of the world is the same in both runs. -/
def SameInput (host : Host Id) (o : Options) (host' : Host Id) (o' : Options) : Stage → Prop
  | .config => host'.reader = host.reader ∧ host'.configPath? o' = host.configPath? o ∧
      ∀ path, host.configPath? o = some path → host'.files.read path = host.files.read path
  | .templates => ∀ c, Loads host.reader host.files (host.configPath? o) (.ok c) →
      ∀ name path resolved, c.templates.get? name = some (.file path) →
        ResolvesTo c path resolved → host'.files.read resolved = host.files.read resolved
  | .list => o'.list = o.list
  | .name => o'.template = o.template
  | .lookUp => True
  | .input => host'.input = host.input
  | .signature => True
  | .template => host'.engine = host.engine
  | .layout => o'.formatted = o.formatted

/-- Up to a stage, both runs ask for the same and are answered the same. -/
def SameUpTo (host : Host Id) (o : Options) (host' : Host Id) (o' : Options) (stage : Stage) :
    Prop :=
  ∀ s : Stage, s.place ≤ stage.place → SameInput host o host' o' s

section
variable {files files' : Files Id} {c : Config} {name : String}

theorem Gives.of_same {text : String} (h : Gives files c name text)
    (hsame : ∀ path resolved, c.templates.get? name = some (.file path) →
      ResolvesTo c path resolved → files'.read resolved = files.read resolved) :
    Gives files' c name text := by
  cases h with
  | inline h => exact .inline h
  | file h hresolved htext => exact .file h hresolved (htext.congr (hsame _ _ h hresolved))

theorem Misses.of_same {resolved : String} {why : ReadFault} (h : Misses files c name resolved why)
    (hsame : ∀ path resolved, c.templates.get? name = some (.file path) →
      ResolvesTo c path resolved → files'.read resolved = files.read resolved) :
    Misses files' c name resolved why := by
  obtain ⟨⟨path, h, hresolved⟩, hwhy⟩ := h
  exact ⟨⟨path, h, hresolved⟩, hwhy.congr (hsame path resolved h hresolved)⟩

theorem MissesFirst.of_same {resolved : String} {why : ReadFault}
    (h : MissesFirst files c name resolved why)
    (hsame : ∀ name path resolved, c.templates.get? name = some (.file path) →
      ResolvesTo c path resolved → files'.read resolved = files.read resolved) :
    MissesFirst files' c name resolved why where
  misses := h.misses.of_same (hsame name)
  first other resolved' why' hother := h.first other resolved' why' <|
    hother.of_same fun path resolved hget hresolved => (hsame other path resolved hget hresolved).symm

end

section
variable {host host' : Host Id} {o o' : Options} {c : Config}

theorem loads_of_same (h : SameInput host o host' o' .config) {r : Except ConfigError Config}
    (hc : Loads host.reader host.files (host.configPath? o) r) :
    Loads host'.reader host'.files (host'.configPath? o') r := by
  obtain ⟨hreader, hpath, hread⟩ := h
  rw [hreader, hpath]
  exact hc.congr hread

theorem Ready.of_same (hready : Ready host o c) (hconfig : SameInput host o host' o' .config)
    (htemplates : SameInput host o host' o' .templates) : Ready host' o' c where
  config := loads_of_same hconfig hready.config
  given := by
    intro name path hget
    obtain ⟨resolved, text, hresolved, htext⟩ := hready.given name path hget
    have hsame := htemplates c hready.config name path resolved hget hresolved
    exact ⟨resolved, text, hresolved, htext.congr hsame⟩

theorem Chooses.of_same {template : String} (hchooses : Chooses host o c template)
    (hsame : SameUpTo host o host' o' .lookUp) : Chooses host' o' c template := by
  obtain ⟨hready, hlist, hname, hne, hoffers⟩ := hchooses
  have hlist' : o'.list = o.list := hsame .list (by decide)
  have hname' : o'.template = o.template := hsame .name (by decide)
  have htemplates : SameInput host o host' o' .templates := hsame .templates (by decide)
  refine .mk (hready.of_same (hsame .config (by decide)) htemplates)
    (hlist'.trans hlist) (hname'.trans hname) hne ?_
  cases hoffers with
  | configured h => exact .configured (h.of_same (htemplates c hready.config _))
  | builtin h hown => exact .builtin h hown

theorem SameUpTo.mono {stage stage' : Stage} (h : SameUpTo host o host' o' stage')
    (hle : stage.place ≤ stage'.place) : SameUpTo host o host' o' stage := fun s hs =>
  h s (Nat.le_trans hs hle)

theorem Renders.of_same {text : String} (hrenders : Renders host o c text)
    (hsame : SameUpTo host o host' o' .template) : Renders host' o' c text := by
  obtain ⟨hchooses, hsource, hm, htext⟩ := hrenders
  have hinput : host'.input = host.input := hsame .input (by decide)
  have hengine : host'.engine = host.engine := hsame .template (by decide)
  exact .mk (hchooses.of_same (hsame.mono (by decide))) (hinput ▸ hsource) hm (hengine ▸ htext)

/-- Up to the look-up of the template, nothing asks for the standard input, and nothing is given to
the engine. -/
theorem sameUpTo_of_input (host : Host Id) (o : Options) (bytes : ByteArray)
    (engine : TemplateEngine) :
    SameUpTo host o { host with input := bytes, engine := engine } o .lookUp := by
  intro s hs
  cases s with
  | config => exact ⟨rfl, rfl, fun _ _ => rfl⟩
  | templates => exact fun _ _ _ _ _ _ _ => rfl
  | list | name => rfl
  | lookUp => trivial
  | input | signature | template | layout => exact absurd hs (by decide)

/-- **A failure depends on nothing that later stages ask for.** -/
theorem StopsAt.of_same {stage : Stage} {failure : Failure} (h : StopsAt host o stage failure)
    (hsame : SameUpTo host o host' o' stage) : StopsAt host' o' stage failure := by
  cases h with
  | config he => exact .config (loads_of_same (hsame .config (by decide)) he)
  | templates hc hfirst =>
      have htemplates : SameInput host o host' o' .templates := hsame .templates (by decide)
      exact .templates (loads_of_same (hsame .config (by decide)) hc)
        (hfirst.of_same (htemplates _ hc))
  | name hready hlist hname =>
      have hlist' : o'.list = o.list := hsame .list (by decide)
      have hname' : o'.template = o.template := hsame .name (by decide)
      exact .name (hready.of_same (hsame .config (by decide)) (hsame .templates (by decide)))
        (hlist'.trans hlist) (hname'.symm ▸ hname)
  | lookUp hready hlist hname hne hnone hown =>
      have hlist' : o'.list = o.list := hsame .list (by decide)
      have hname' : o'.template = o.template := hsame .name (by decide)
      exact .lookUp (hready.of_same (hsame .config (by decide)) (hsame .templates (by decide)))
        (hlist'.trans hlist) (hname'.trans hname) hne hnone hown
  | input hchooses hnone =>
      have hinput : host'.input = host.input := hsame .input (by decide)
      exact .input (hchooses.of_same (hsame.mono (by decide))) (hinput ▸ hnone)
  | signature hchooses hsource he =>
      have hinput : host'.input = host.input := hsame .input (by decide)
      exact .signature (hchooses.of_same (hsame.mono (by decide))) (hinput ▸ hsource) he
  | template hchooses hsource hm he =>
      have hinput : host'.input = host.input := hsame .input (by decide)
      have hengine : host'.engine = host.engine := hsame .template (by decide)
      exact .template (hchooses.of_same (hsame.mono (by decide))) (hinput ▸ hsource) hm
        (hengine ▸ he)
  | layout hrenders hformatted he =>
      have hformat : o'.formatted = o.formatted := hsame .layout (by decide)
      exact .layout (hrenders.of_same (hsame.mono (by decide))) (hformat ▸ hformatted) he

end

/-! ## The outcome -/

/-- The options of a run are those of the command line, and the environment names the configuration
if the command line does not. -/
theorem AsksForRun.exists_given {host : Host Id} {arguments : List String} {o : Options}
    (h : AsksForRun host arguments o) :
    ∃ given, readArguments .unset none arguments = .ok (.generate given) ∧
      o = { given with config := given.config <|> host.environmentConfig } := by
  have hrequest := h.request
  rw [Request.ofArguments] at hrequest
  split at hrequest
  · rename_i given hgiven
    refine ⟨given, hgiven, ?_⟩
    split at hrequest
    · rename_i path hconfig henvironment
      obtain ⟨o', hset, ho⟩ := map_ok_iff.mp hrequest
      cases ho
      rw [Options.set, if_neg (by simp [hconfig])] at hset
      split at hset
      · cases hset
      · cases hset
        rw [hconfig, henvironment]
        rfl
    · rename_i hother
      cases hrequest
      have hconfig : (o.config <|> host.environmentConfig) = o.config := by
        cases hasked : o.config with
        | some path => rfl
        | none =>
            cases henvironment : host.environmentConfig with
            | none => rfl
            | some path => exact (hother path hasked henvironment).elim
      rw [hconfig]
  · rename_i hnot
    exact absurd hrequest (hnot o)

/-- What a run without a list prints is what is generated from the signature and the template. -/
theorem Prints.generate_eq {host : Host Id} {o : Options} {out : String}
    (hprints : Prints host o out) (hlist : o.list = false) :
    ∃ c template source, Chooses host o c template ∧ host.input.run = source.toUTF8 ∧
      generate source template (o.formatted || c.formatted) host.engine = .ok out := by
  cases hprints with
  | names _ hnames => simp [hlist] at hnames
  | plain hrenders ho hc =>
      obtain ⟨hchooses, hsource, hm, htext⟩ := hrenders
      refine ⟨_, _, _, hchooses, hsource, ?_⟩
      rw [generate_of_makes hm htext, ho, hc]
      rfl
  | laidOut hrenders hformatted hout =>
      obtain ⟨hchooses, hsource, hm, htext⟩ := hrenders
      refine ⟨_, _, _, hchooses, hsource, ?_⟩
      rw [generate_of_makes hm htext, if_pos (Bool.or_eq_true_iff.mpr hformatted), hout]
      rfl

/-- **The first stage that fails is reported, and nothing is printed then.**  The options of a run
are those of its command line.  It prints something, and that is all it leaves then, or it stops at
a stage and leaves the report of the failure; without a list, what it prints is what is generated
from the signature on the standard input and the template of the name.  Another run that is the same
up to the stage where the first one stops has the same outcome. -/
theorem runProgram_stages {host : Host Id} {arguments : List String} {o : Options}
    (h : AsksForRun host arguments o) :
    (∃ given, readArguments .unset none arguments = .ok (.generate given) ∧
      o = { given with config := given.config <|> host.environmentConfig }) ∧
    ((∃ out, Prints host o out) ∨ ∃ stage failure, StopsAt host o stage failure) ∧
    (∀ out, Prints host o out → (runProgram host arguments).run = ⟨0, out, ""⟩ ∧
      (o.list = false → ∃ c template source, Chooses host o c template ∧
        host.input.run = source.toUTF8 ∧
        generate source template (o.formatted || c.formatted) host.engine = .ok out)) ∧
    ∀ stage failure, StopsAt host o stage failure →
      (runProgram host arguments).run =
        ⟨1, "", ": ".intercalate failure.chain ++ "\n" ++ usage⟩ ∧
      ∀ host' arguments' o', AsksForRun host' arguments' o' → SameUpTo host o host' o' stage →
        (runProgram host' arguments').run = (runProgram host arguments).run := by
  have hrun : ∀ {host arguments o}, AsksForRun host arguments o →
      (runProgram host arguments).run = Outcome.ofResult (o.run host).run.run := by
    intro host arguments o h
    rw [runProgram, h.request]
    rfl
  have hstops : ∀ {host arguments o stage failure}, AsksForRun host arguments o →
      StopsAt host o stage failure → (runProgram host arguments).run =
        ⟨1, "", ": ".intercalate failure.chain ++ "\n" ++ usage⟩ := by
    intro host arguments o stage failure h hstops
    rw [hrun h, hstops.run_eq h, Outcome.ofResult, Failure.report_eq]
  refine ⟨h.exists_given, prints_or_stopsAt host o, fun out hout => ⟨?_, hout.generate_eq⟩,
    fun stage failure hs => ?_⟩
  · rw [hrun h, hout.run_eq h]
    rfl
  · refine ⟨hstops h hs, fun host' arguments' o' h' hsame => ?_⟩
    rw [hstops h hs, hstops h' (hs.of_same hsame)]

/-- A configuration with one template, in a file, that has what is generated laid out. -/
def shortDocument : String := "format = true\n[templates.short]\npath = \"s.tmpl\"\n"

/-- What it configures. -/
def shortConfig : Config := ⟨true, (NameMap.empty.insert "short" (.file "s.tmpl")).2, some ""⟩

/-- The text of the template. -/
def shortTemplate : String := "\x7b\x7b ReceiverType \x7d\x7d.\x7b\x7b Name \x7d\x7d( a,b )"

/-- A world with the configuration, in which `template` comes of reading the template. -/
def shortHost (template : Except ReadFault ByteArray) (input : ByteArray) : Host Id where
  files :=
    { read := fun path =>
        if path = "c.toml" then .ok shortDocument.toUTF8
        else if path = "s.tmpl" then template else .error .notFound
      isFile := fun _ => false }
  environmentConfig := some "c.toml"
  defaultConfig := none
  input := input

/-- A command line that asks for the template. -/
def shortArguments : List String := ["-t", "short", "--stdin", "--stdout"]

/-- Its options. -/
def shortOptions : Options :=
  { Options.unset with
    template := some "short", config := some "c.toml", fromStdin := true, toStdout := true }

section
variable (template : Except ReadFault ByteArray) (input : ByteArray)

theorem asksForRun_short : AsksForRun (shortHost template input) shortArguments shortOptions where
  request := by
    show Request.ofArguments shortArguments (some "c.toml") = _
    decide +kernel
  serves := rfl
  pipes := .inr ⟨rfl, rfl⟩

theorem read_short : (shortHost template input).files.read "s.tmpl" = template := by
  simp [shortHost]

theorem loads_short : Loads Toml.reader (shortHost template input).files
    ((shortHost template input).configPath? shortOptions) (.ok shortConfig) := by
  have htext : (shortHost template input).files.text "c.toml" = .ok shortDocument := by
    rw [← holdsText_iff, HoldsText]
    simp only [shortHost, if_true]
    rfl
  have hread : Config.read Toml.reader "c.toml" (some "") shortDocument = .ok shortConfig := by
    decide +kernel
  have hparent : Path.parent? "c.toml" = some "" := by decide +kernel
  have hpath : (shortHost template input).configPath? shortOptions = some "c.toml" := rfl
  rw [hpath, loads_some_iff, load_run, htext, hparent, mapError_ok, ok_bind, hread]

end

theorem get?_short_iff {name path : String} :
    shortConfig.templates.get? name = some (.file path) ↔ name = "short" ∧ path = "s.tmpl" := by
  rw [shortConfig, NameMap.get?_insert, NameMap.get?_empty]
  split
  · rename_i hname
    simp [hname, eq_comm]
  · rename_i hname
    simp [hname]

theorem resolvesTo_short : ResolvesTo shortConfig "s.tmpl" "s.tmpl" :=
  resolvesTo_iff.mpr (by decide +kernel)

/-- With the file of the template the run has something to print. -/
theorem prints_short :
    Prints (shortHost (.ok shortTemplate.toUTF8) "func (d *db) Get() error".toUTF8) shortOptions
      "db.Get(a, b)" := by
  let host : Host Id :=
    shortHost (.ok shortTemplate.toUTF8) "func (d *db) Get() error".toUTF8
  have hholds : HoldsText host.files "s.tmpl" shortTemplate := read_short _ _
  have hready : Ready host shortOptions shortConfig := by
    refine ⟨loads_short _ _, fun name path h => ?_⟩
    obtain ⟨rfl, rfl⟩ := get?_short_iff.mp h
    exact ⟨_, _, resolvesTo_short, hholds⟩
  have hchooses : Chooses host shortOptions shortConfig shortTemplate :=
    .mk hready rfl rfl (by decide)
      (.configured (.file (get?_short_iff.mpr ⟨rfl, rfl⟩) resolvesTo_short hholds))
  have hm : parseSignature "func (d *db) Get() error" = .ok ⟨"db", "Get", [], ["error"]⟩ := by
    decide +kernel
  have htext : TemplateEngine.core.Makes ⟨"db", "Get", [], ["error"]⟩ shortTemplate
      (.ok "db.Get( a,b )") := makes_iff.mpr (by decide +kernel)
  have hout : reformat "db.Get( a,b )" = .ok "db.Get(a, b)" := by decide +kernel
  exact .laidOut (.mk hchooses rfl hm htext) (.inr rfl) hout

/-- Without it the run has only this file to complain about. -/
theorem missesFirst_short (input : ByteArray) :
    MissesFirst (shortHost (.error .notFound) input).files shortConfig "short" "s.tmpl"
      .notFound where
  misses := ⟨⟨_, get?_short_iff.mpr ⟨rfl, rfl⟩, resolvesTo_short⟩, .fault (read_short _ _)⟩
  first other resolved why h := by
    obtain ⟨path, hother, _⟩ := h.configured
    exact .inl (get?_short_iff.mp hother).1

/-- With the file of the template the run prints what is generated; without it the run reports the
file, whatever stands on the standard input and whatever the engine would make of it. -/
theorem runProgram_stages_short :
    let host := shortHost (.ok shortTemplate.toUTF8) "func (d *db) Get() error".toUTF8
    AsksForRun host shortArguments shortOptions ∧
    (runProgram host shortArguments).run = ⟨0, "db.Get(a, b)", ""⟩ ∧
    ∀ bytes engine, (runProgram
        { shortHost (.error .notFound) ByteArray.empty with input := bytes, engine := engine }
        shortArguments).run = ⟨1, "", ": ".intercalate
          ["failed to read template `short` from s.tmpl: No such file or directory (os error 2)",
            "No such file or directory (os error 2)"] ++ "\n" ++ usage⟩ := by
  intro host
  refine ⟨asksForRun_short _ _,
    ((runProgram_stages (asksForRun_short _ _)).2.2.1 _ prints_short).1, fun bytes engine => ?_⟩
  obtain ⟨hreport, hsame⟩ := (runProgram_stages (asksForRun_short _ _)).2.2.2 _ _
    (.templates (loads_short _ _) (missesFirst_short ByteArray.empty))
  let host' : Host Id :=
    { shortHost (.error .notFound) ByteArray.empty with input := bytes, engine := engine }
  have hasks : AsksForRun host' shortArguments shortOptions :=
    ⟨(asksForRun_short (.error .notFound) ByteArray.empty).request, rfl, .inr ⟨rfl, rfl⟩⟩
  have hinput : SameUpTo (shortHost (.error .notFound) ByteArray.empty) shortOptions host'
      shortOptions .templates :=
    (sameUpTo_of_input _ _ bytes engine).mono (by decide)
  have hchain : (Failure.config (.template "short" "s.tmpl" .notFound)).chain =
      ["failed to read template `short` from s.tmpl: No such file or directory (os error 2)",
        "No such file or directory (os error 2)"] := by decide +kernel
  rw [hsame host' _ _ hasks hinput, hreport, hchain]

end MethodSkeleton
