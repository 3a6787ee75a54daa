/-
# `MethodSkeleton.Proofs.CommandLine.Outcomes` — what a run prints and where it stops

A run loads a configuration, reads the templates in it, lists their names or picks one of them,
reads a signature, and generates from the two.  What it prints (`Prints`) and where it stops
(`StopsAt`) are said without the program: each stage by what came of those in front of it, by the
bytes that the files hold, and by what the host's libraries answer.  A run answers what it is to
print (`Prints.run_eq`) or the failure of the stage that it stops at (`StopsAt.run_eq`), and one of
the two there always is (`prints_or_stopsAt`).

Nothing is asked of the libraries.  The reader of documents and the template engine belong to the
host, and the host is any; whatever they accept and however they word what they do not, the program
takes their answers in the same order and puts their words into the same reports.

The list of names comes behind the templates and before the name of one is asked for; it is a stage
that cannot fail.
-/
import MethodSkeleton.CommandLine.Run
import MethodSkeleton.Proofs.Config.AllOrNothing

namespace MethodSkeleton

/-! ## What a run is about -/

/-- The stages of a run, in their order. -/
inductive Stage
  | config
  | templates
  | list
  | name
  | lookUp
  | input
  | signature
  | template
  | layout
deriving DecidableEq, Repr

/-- The number of stages in front of a stage. -/
def Stage.place : Stage → Nat
  | config => 0
  | templates => 1
  | list => 2
  | name => 3
  | lookUp => 4
  | input => 5
  | signature => 6
  | template => 7
  | layout => 8

/-- The path of the configuration that a run loads, if it loads one. -/
def Host.configPath? (host : Host Id) (o : Options) : Option String :=
  MethodSkeleton.configPath? host.files o.config host.defaultConfig

/-- The text of a name: the one that the configuration gives to it, or the built-in one if the name
is not configured. -/
inductive Offers (files : Files Id) (c : Config) (name : String) : String → Prop
  | configured {text : String} : Gives files c name text → Offers files c name text
  | builtin {text : String} : c.templates.get? name = none → builtinText? name = some text →
      Offers files c name text

/-- What an engine makes of a template for a method. -/
inductive TemplateEngine.Makes (engine : TemplateEngine) (m : Method) (template : String) :
    Except TemplateError String → Prop
  | noTemplate {why : String} : engine.compile template = .error why →
      engine.Makes m template (.error (.parse why))
  | unfilled {compiled : engine.Compiled} {why : String} : engine.compile template = .ok compiled →
      engine.fill compiled m.variables = .error why →
      engine.Makes m template (.error (.render why))
  | text {compiled : engine.Compiled} {text : String} : engine.compile template = .ok compiled →
      engine.fill compiled m.variables = .ok text → engine.Makes m template (.ok text)

/-- The configuration of a run, with a text at the path of every template in it. -/
structure Ready (host : Host Id) (o : Options) (c : Config) : Prop where
  config : Loads host.reader host.files (host.configPath? o) (.ok c)
  given : ∀ name path, c.templates.get? name = some (.file path) →
    ∃ resolved text, ResolvesTo c path resolved ∧ HoldsText host.files resolved text

/-- A run does not list the names but asks for a template, and this is the one it gets. -/
inductive Chooses (host : Host Id) (o : Options) (c : Config) (template : String) : Prop
  | mk {name : String} : Ready host o c → o.list = false → o.template = some name → name ≠ "" →
      Offers host.files c name template → Chooses host o c template

/-- A run reads a signature, and this is the method it declares and the text that the template
makes of it. -/
inductive Renders (host : Host Id) (o : Options) (c : Config) (text : String) : Prop
  | mk {template source : String} {m : Method} : Chooses host o c template →
      host.input.run = source.toUTF8 → parseSignature source = .ok m →
      host.engine.Makes m template (.ok text) → Renders host o c text

/-- What a run without a failure prints: the names of all templates, one on each line, in the order
of their bytes; or the text of the template, laid out if that is asked for. -/
inductive Prints (host : Host Id) (o : Options) : String → Prop
  | names {c : Config} {names : List String} : Ready host o c → o.list = true →
      names.Pairwise BytesBefore →
      (∀ name, name ∈ names ↔
        (c.templates.get? name).isSome = true ∨ (builtinText? name).isSome = true) →
      Prints host o (String.join (names.map (· ++ "\n")))
  | plain {c : Config} {text : String} : Renders host o c text → o.formatted = false →
      c.formatted = false → Prints host o text
  | laidOut {c : Config} {text out : String} : Renders host o c text →
      (o.formatted = true ∨ c.formatted = true) → reformat text = .ok out → Prints host o out

/-- The first stage of a run that fails, and how it does. -/
inductive StopsAt (host : Host Id) (o : Options) : Stage → Failure → Prop
  | config {e : ConfigError} : Loads host.reader host.files (host.configPath? o) (.error e) →
      StopsAt host o .config (.config e)
  | templates {c : Config} {name resolved : String} {why : ReadFault} :
      Loads host.reader host.files (host.configPath? o) (.ok c) →
      MissesFirst host.files c name resolved why →
      StopsAt host o .templates (.config (.template name resolved why))
  | name {c : Config} : Ready host o c → o.list = false → o.template.getD "" = "" →
      StopsAt host o .name .invalidName
  | lookUp {c : Config} {name : String} : Ready host o c → o.list = false →
      o.template = some name → name ≠ "" → c.templates.get? name = none →
      builtinText? name = none → StopsAt host o .lookUp (.registry (.notFound name))
  | input {c : Config} {template : String} : Chooses host o c template →
      (∀ source : String, host.input.run ≠ source.toUTF8) →
      StopsAt host o .input (.input .invalidUtf8)
  | signature {c : Config} {template source : String} {e : ParseError} :
      Chooses host o c template → host.input.run = source.toUTF8 →
      parseSignature source = .error e → StopsAt host o .signature (.generate (.signature e))
  | template {c : Config} {template source : String} {m : Method} {e : TemplateError} :
      Chooses host o c template → host.input.run = source.toUTF8 →
      parseSignature source = .ok m → host.engine.Makes m template (.error e) →
      StopsAt host o .template (.generate (.template e))
  | layout {c : Config} {text : String} {e : LayoutError} : Renders host o c text →
      (o.formatted = true ∨ c.formatted = true) → reformat text = .error e →
      StopsAt host o .layout (.generate (.layout e))

/-- The message of a failure and those of its sources.  What a file or a library has to say of
itself stands in the message already, and is a source of its own besides where there is one. -/
def Failure.chain : Failure → List String
  | config (.unreadable path why) =>
    ["failed to read config " ++ path ++ ": " ++ why.message, why.message]
  | config (.invalid ⟨path, reason⟩) => ["invalid config " ++ path ++ ": " ++ reason, reason]
  | config (.template name path why) =>
    ["failed to read template `" ++ name ++ "` from " ++ path ++ ": " ++ why.message, why.message]
  | invalidName => ["invalid TemplateName"]
  | registry (.notFound name) => ["unable to find template: " ++ name]
  | input why => ["failed to read stdin", why.message]
  | clipboard => ["clipboard not available"]
  | generate (.signature e) => [e.message]
  | generate (.template (.parse why)) => ["template parse error: " ++ why]
  | generate (.template (.render why)) => ["template render error: " ++ why]
  | generate (.layout e) => [e.message]

theorem Failure.report_eq (f : Failure) : f.report = ": ".intercalate f.chain := by
  have hpair : ∀ message cause : String,
      ": ".intercalate [message, cause] = message ++ ": " ++ cause := fun message cause => by
    rw [String.intercalate_cons_cons, String.intercalate_singleton]
  cases f with
  | config e => cases e <;> exact (hpair _ _).symm
  | input why =>
      rw [Failure.chain, hpair, show "failed to read stdin" ++ ": " = "failed to read stdin: " from rfl]
      rfl
  | invalidName | clipboard => exact String.intercalate_singleton.symm
  | registry e => cases e; exact String.intercalate_singleton.symm
  | generate e =>
      rcases e with e | ⟨why | why⟩ | e <;> exact String.intercalate_singleton.symm

/-! ## Single steps -/

theorem templateName_ok_iff {o : Options} {name : String} :
    o.templateName = .ok name ↔ o.template = some name ∧ name ≠ "" := by
  rw [Options.templateName]
  cases o.template with
  | none => simp
  | some asked =>
      simp only [Option.some.injEq]
      split
      · rename_i hempty
        simpa using fun h => h ▸ hempty
      · rename_i hne
        simpa using fun h => h ▸ hne

theorem templateName_error_iff {o : Options} {f : Failure} :
    o.templateName = .error f ↔ o.template.getD "" = "" ∧ .invalidName = f := by
  rw [Options.templateName]
  cases o.template with
  | none => simp
  | some asked =>
      simp only [Option.getD_some]
      split
      · rename_i hempty
        simp [hempty]
      · rename_i hne
        simp [hne]

/-- What an engine makes of a template is what is rendered. -/
theorem makes_iff {engine : TemplateEngine} {m : Method} {template : String}
    {r : Except TemplateError String} :
    engine.Makes m template r ↔ engine.render m template = r := by
  constructor
  · rintro (hwhy | ⟨hcompiled, hwhy⟩ | ⟨hcompiled, htext⟩)
    · rw [TemplateEngine.render, hwhy]
      rfl
    · rw [TemplateEngine.render, hcompiled, mapError_ok, ok_bind, hwhy]
      rfl
    · rw [TemplateEngine.render, hcompiled, mapError_ok, ok_bind, htext]
      rfl
  · rintro rfl
    rw [TemplateEngine.render]
    cases hcompiled : engine.compile template with
    | error why => exact .noTemplate hcompiled
    | ok compiled =>
        rw [mapError_ok, ok_bind]
        cases hfill : engine.fill compiled m.variables with
        | error why => exact .unfilled hcompiled hfill
        | ok text => exact .text hcompiled hfill

theorem readSignature_run (host : Host Id) (fromStdin : Bool) :
    (host.readSignature fromStdin).run.run =
      if fromStdin = true then (textOfBytes host.input.run).mapError .input
      else .error .clipboard := by
  cases fromStdin with
  | false => rfl
  | true =>
      rw [Host.readSignature, if_pos rfl, run_bind]
      rfl

section
variable {source template : String} {formatted : Bool} {engine : TemplateEngine} {m : Method}
  {text : String}

/-- What is generated from a method is its rendered text, laid out if that is asked for. -/
theorem generate_of_parse (hm : parseSignature source = .ok m) :
    generate source template formatted engine =
      ((engine.render m template).mapError .template >>= fun text =>
        if formatted = true then (reformat text).mapError .layout else .ok text) := by
  rw [generate, hm]
  rfl

theorem generate_of_makes (hm : parseSignature source = .ok m)
    (htext : engine.Makes m template (.ok text)) :
    generate source template formatted engine =
      if formatted = true then (reformat text).mapError .layout else .ok text := by
  rw [generate_of_parse hm, makes_iff.mp htext]
  rfl

end

/-! ## A whole run -/

/-- A command line that asks for a run, and for nothing of the clipboard. -/
structure AsksForRun (host : Host Id) (arguments : List String) (o : Options) : Prop where
  request : Request.ofArguments arguments host.environmentConfig = .ok (.generate o)
  serves : o.serveClipboard = false
  pipes : o.list = true ∨ o.fromStdin = true ∧ o.toStdout = true

section
variable {host : Host Id} {o : Options} {c : Config} {r : Registry} {text : String}
  {arguments : List String} {template : String} {failure : Failure}

/-- The stages behind the registry. -/
def Host.print (host : Host Id) (o : Options) (c : Config) (r : Registry) :
    Except Failure String := do
  let name ← o.templateName
  let template ← (r.find name).mapError .registry
  let source ← (textOfBytes host.input.run).mapError .input
  (generate source template (o.formatted || c.formatted) host.engine).mapError .generate

theorem run_eq (h : AsksForRun host arguments o) : (o.run host).run.run = (do
    let c ← (Config.discover host.files o.config host.defaultConfig host.reader).run.run.mapError
      .config
    let r ← (Registry.ofConfig host.files c).run.run.mapError .config
    if o.list = true then .ok (String.join (r.names.map (· ++ "\n")))
    else host.print o c r) := by
  rw [Options.run, h.serves]
  simp only [Bool.false_eq_true, if_false, run_bind, run_adapt]
  refine congrArg _ (funext fun c => congrArg _ (funext fun r => ?_))
  split
  · rfl
  · rename_i hlist
    obtain ⟨hin, hout⟩ := h.pipes.resolve_left hlist
    simp only [run_bind, run_mk_pure, readSignature_run, hin, hout, if_true, bind_pure]
    rfl

theorem run_of_loads (h : AsksForRun host arguments o)
    (hc : Loads host.reader host.files (host.configPath? o) (.ok c)) : (o.run host).run.run = (do
    let r ← (Registry.ofConfig host.files c).run.run.mapError .config
    if o.list = true then .ok (String.join (r.names.map (· ++ "\n")))
    else host.print o c r) := by
  rw [run_eq h, discover_iff.mpr hc]
  rfl

/-- Behind the templates there is a registry that holds them. -/
theorem Ready.exists_registry (hready : Ready host o c) :
    ∃ r, (Registry.ofConfig host.files c).run.run = .ok r ∧ Holds host.files c r := by
  obtain ⟨r, hr⟩ := exists_registry_iff.mpr hready.given
  exact ⟨r, hr, (ofConfig_ok_iff.mp hr).holds⟩

theorem run_of_ready (h : AsksForRun host arguments o) (hready : Ready host o c) :
    ∃ r, Holds host.files c r ∧ (o.run host).run.run =
      if o.list = true then .ok (String.join (r.names.map (· ++ "\n")))
      else host.print o c r := by
  obtain ⟨r, hr, hholds⟩ := hready.exists_registry
  refine ⟨r, hholds, ?_⟩
  rw [run_of_loads h hready.config, hr]
  rfl

theorem offers_iff {name : String} (hholds : Holds host.files c r) :
    Offers host.files c name template ↔ r.find name = .ok template := by
  rw [hholds.found]
  constructor
  · rintro (h | ⟨h, hown⟩)
    · exact .inl h
    · exact .inr ⟨h, hown⟩
  · rintro (h | ⟨h, hown⟩)
    · exact .configured h
    · exact .builtin h hown

theorem run_of_chooses (h : AsksForRun host arguments o) (hchooses : Chooses host o c template) :
    (o.run host).run.run = (do
      let source ← (textOfBytes host.input.run).mapError .input
      (generate source template (o.formatted || c.formatted) host.engine).mapError .generate) := by
  obtain ⟨hready, hlist, hname, hne, hoffers⟩ := hchooses
  obtain ⟨r, hholds, hrun⟩ := run_of_ready h hready
  rw [hrun, if_neg (by simp [hlist]), Host.print, templateName_ok_iff.mpr ⟨hname, hne⟩, ok_bind,
    (offers_iff hholds).mp hoffers]
  rfl

theorem run_of_source {source : String} (h : AsksForRun host arguments o)
    (hchooses : Chooses host o c template) (hsource : host.input.run = source.toUTF8) :
    (o.run host).run.run =
      (generate source template (o.formatted || c.formatted) host.engine).mapError .generate := by
  rw [run_of_chooses h hchooses, textOfBytes_ok_iff.mpr hsource]
  rfl

theorem run_of_renders (h : AsksForRun host arguments o) (hrenders : Renders host o c text) :
    (o.run host).run.run = if (o.formatted || c.formatted) = true then
      ((reformat text).mapError GenerateError.layout).mapError .generate else .ok text := by
  obtain ⟨hchooses, hsource, hm, htext⟩ := hrenders
  rw [run_of_source h hchooses hsource, generate_of_makes hm htext]
  split
  · rfl
  · rfl

theorem mem_names_iff_offered (hholds : Holds host.files c r) (name : String) : name ∈ r.names ↔
    (c.templates.get? name).isSome = true ∨ (builtinText? name).isSome = true := by
  rw [hholds.names, NameMap.mem_names_iff, NameMap.mem_names_iff, get?_builtin]

theorem not_offered {name : String} {e : RegistryError} (hholds : Holds host.files c r)
    (h : r.find name = .error e) : c.templates.get? name = none ∧ builtinText? name = none := by
  have hnot : name ∉ r.names := by
    rw [NameMap.mem_names_iff, (find_error_iff.mp h).1]
    simp
  rw [mem_names_iff_offered hholds] at hnot
  simpa using hnot

/-- A run answers what it is to print. -/
theorem Prints.run_eq (h : AsksForRun host arguments o) (hprints : Prints host o text) :
    (o.run host).run.run = .ok text := by
  cases hprints with
  | names hready hlist hsorted hmem =>
      obtain ⟨r, hholds, hrun⟩ := run_of_ready h hready
      have hnames := eq_names (r := r) hsorted fun name =>
        (hmem name).trans (mem_names_iff_offered hholds name).symm
      rw [hrun, if_pos hlist, hnames]
  | plain hrenders ho hc =>
      rw [run_of_renders h hrenders, ho, hc]
      rfl
  | laidOut hrenders hformatted hout =>
      rw [run_of_renders h hrenders, if_pos (Bool.or_eq_true_iff.mpr hformatted), hout]
      rfl

/-- A run answers the failure of the stage that it stops at. -/
theorem StopsAt.run_eq (h : AsksForRun host arguments o) {stage : Stage}
    (hstops : StopsAt host o stage failure) : (o.run host).run.run = .error failure := by
  cases hstops with
  | config he =>
      rw [MethodSkeleton.run_eq h, discover_iff.mpr he]
      rfl
  | templates hc hfirst =>
      rw [run_of_loads h hc, hfirst.ofConfig_eq]
      rfl
  | name hready hlist hname =>
      obtain ⟨r, _, hrun⟩ := run_of_ready h hready
      rw [hrun, if_neg (by simp [hlist]), Host.print, templateName_error_iff.mpr ⟨hname, rfl⟩]
      rfl
  | lookUp hready hlist hname hne hnone hown =>
      obtain ⟨r, hholds, hrun⟩ := run_of_ready h hready
      rw [hrun, if_neg (by simp [hlist]), Host.print, templateName_ok_iff.mpr ⟨hname, hne⟩,
        ok_bind, hholds.notFound _ hnone hown]
      rfl
  | input hchooses hnone =>
      rw [run_of_chooses h hchooses, textOfBytes_error_iff.mpr ⟨hnone, rfl⟩]
      rfl
  | signature hchooses hsource he =>
      rw [run_of_source h hchooses hsource, generate, he]
      rfl
  | template hchooses hsource hm he =>
      rw [run_of_source h hchooses hsource, generate_of_parse hm, makes_iff.mp he]
      rfl
  | layout hrenders hformatted he =>
      rw [run_of_renders h hrenders, if_pos (Bool.or_eq_true_iff.mpr hformatted), he]
      rfl

/-- Behind a rendered text a run prints it or stops where it is laid out. -/
theorem Renders.prints_or_stopsAt (hrenders : Renders host o c text) :
    (∃ out, Prints host o out) ∨ ∃ stage failure, StopsAt host o stage failure := by
  cases hformatted : (o.formatted || c.formatted) with
  | false =>
      obtain ⟨ho, hc⟩ := Bool.or_eq_false_iff.mp hformatted
      exact .inl ⟨_, .plain hrenders ho hc⟩
  | true =>
      have hasked := Bool.or_eq_true_iff.mp hformatted
      cases hout : reformat text with
      | ok out => exact .inl ⟨_, .laidOut hrenders hasked hout⟩
      | error e => exact .inr ⟨_, _, .layout hrenders hasked hout⟩

/-- Behind a template a run reads a signature and goes on from it, or stops on the way. -/
theorem Chooses.prints_or_stopsAt (hchooses : Chooses host o c template) :
    (∃ out, Prints host o out) ∨ ∃ stage failure, StopsAt host o stage failure := by
  by_cases hsource : ∃ source : String, host.input.run = source.toUTF8
  · obtain ⟨source, hsource⟩ := hsource
    cases hm : parseSignature source with
    | error e => exact .inr ⟨_, _, .signature hchooses hsource hm⟩
    | ok m =>
        cases hmade : host.engine.render m template with
        | error e => exact .inr ⟨_, _, .template hchooses hsource hm (makes_iff.mpr hmade)⟩
        | ok text => exact (Renders.mk hchooses hsource hm (makes_iff.mpr hmade)).prints_or_stopsAt
  · exact .inr ⟨_, _, .input hchooses (not_exists.mp hsource)⟩

/-- Behind the templates a run lists their names or asks for one of them. -/
theorem Ready.prints_or_stopsAt (hready : Ready host o c) :
    (∃ out, Prints host o out) ∨ ∃ stage failure, StopsAt host o stage failure := by
  obtain ⟨r, _, hholds⟩ := hready.exists_registry
  cases hlist : o.list with
  | true =>
      exact .inl ⟨_, .names hready hlist hholds.sorted (mem_names_iff_offered hholds)⟩
  | false =>
      cases hname : o.templateName with
      | error e => exact .inr ⟨_, _, .name hready hlist (templateName_error_iff.mp hname).1⟩
      | ok name =>
          obtain ⟨hname, hne⟩ := templateName_ok_iff.mp hname
          cases hfound : r.find name with
          | ok template =>
              have hoffers := (offers_iff hholds).mpr hfound
              exact (Chooses.mk hready hlist hname hne hoffers).prints_or_stopsAt
          | error e =>
              obtain ⟨hnone, hown⟩ := not_offered hholds hfound
              exact .inr ⟨_, _, .lookUp hready hlist hname hne hnone hown⟩

/-- A run prints something or stops at a stage. -/
theorem prints_or_stopsAt (host : Host Id) (o : Options) :
    (∃ out, Prints host o out) ∨ ∃ stage failure, StopsAt host o stage failure := by
  cases hc : (Config.discover host.files o.config host.defaultConfig host.reader).run.run with
  | error e => exact .inr ⟨_, _, .config (discover_iff.mp hc)⟩
  | ok c =>
      have hloads := discover_iff.mp hc
      cases hr : (Registry.ofConfig host.files c).run.run with
      | error e =>
          obtain ⟨_, _, _, hfirst, rfl⟩ := (ofConfig_error_iff.mp hr).missesFirst
          exact .inr ⟨_, _, .templates hloads hfirst⟩
      | ok r => exact Ready.prints_or_stopsAt ⟨hloads, exists_registry_iff.mp ⟨r, hr⟩⟩

end

end MethodSkeleton
