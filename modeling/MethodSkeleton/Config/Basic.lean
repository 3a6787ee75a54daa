/-
# `MethodSkeleton.Config.Basic` — what a user configures

A configuration says whether generated text is laid out anew and names templates, each
given in place or by the path of a file.  A document is one if it has no keys but `format`
and `templates`, each at most once, and a value of the right kind for each.  The keys
of a template's table other than `path` are of no concern.
-/
import MethodSkeleton.Files.Basic
import MethodSkeleton.NameMap
import MethodSkeleton.Toml.Reader

namespace MethodSkeleton

/-- Where the text of a template is. -/
inductive TemplateSource
  | inline (text : String)
  | file (path : String)
deriving DecidableEq, Repr

/-- A configuration.  Paths in it start from `base`, if there is one. -/
structure Config where
  formatted : Bool
  templates : NameMap TemplateSource
  base : Option String
deriving DecidableEq

/-- Why a configuration cannot be had. -/
inductive ConfigError
  | unreadable (path : String) (why : ReadFault)
  | invalid (refusal : Document.Refusal)
  | template (name path : String) (why : ReadFault)
deriving DecidableEq, Repr

/-- The wording of an error. -/
def ConfigError.message : ConfigError → String
  | unreadable path why => "failed to read config " ++ path ++ ": " ++ why.message
  | invalid refusal => "invalid config " ++ refusal.path ++ ": " ++ refusal.reason
  | template name path why =>
    "failed to read template `" ++ name ++ "` from " ++ path ++ ": " ++ why.message

namespace Config

/-- The configuration without settings. -/
def empty : Config := ⟨false, .empty, none⟩

/-- Whether a configuration is the one without settings. -/
def isEmpty (c : Config) : Bool := !c.formatted && c.templates.isEmpty && c.base.isNone

/-- The source that a value describes. -/
def source? : Document.Value → Option TemplateSource
  | .text text => some (.inline text)
  | .table entries =>
    match Document.valuesOf "path" entries with
    | [.text path] => some (.file path)
    | _ => none
  | _ => none

/-- The sources that a table describes; of two for one name the later counts. -/
def sources? (entries : Document) : Option (NameMap TemplateSource) :=
  (entries.mapM fun e => (source? e.2).map (e.1, ·)).map NameMap.empty.insertAll

/-- What has been met of a configuration while its document is read. -/
structure Draft where
  formatted : Option Bool
  templates : Option (NameMap TemplateSource)

/-- The draft behind one more entry.  A key that is not known or has been met before is refused. -/
def Draft.set? (d : Draft) (key : String) (v : Document.Value) : Option Draft :=
  match key, v with
  | "format", .flag b =>
    if d.formatted.isNone then some { d with formatted := some b } else none
  | "templates", .table entries =>
    if d.templates.isNone then
      (sources? entries).map fun sources => { d with templates := some sources }
    else none
  | _, _ => none

/-- The configuration that a document is; `base` is where its paths start. -/
def ofDocument? (base : Option String) (document : Document) : Option Config :=
  (document.foldlM (fun d e => Draft.set? d e.1 e.2) ⟨none, none⟩).map fun d =>
    ⟨d.formatted.getD empty.formatted, d.templates.getD empty.templates, base⟩

/-- The configuration that the text at a path writes; `base` is where its paths start. -/
def read (reader : Document.Reader) (path : String) (base : Option String) (text : String) :
    Except ConfigError Config :=
  match reader.read text with
  | .error reason => .error (.invalid ⟨path, reason⟩)
  | .ok document =>
    match ofDocument? base document with
    | some c => .ok c
    | none => .error (.invalid ⟨path, reader.refusal text⟩)

/-- The configuration that a text writes, its paths starting where the program runs. -/
def ofText (text : String) (reader : Document.Reader := Toml.reader) : Except ConfigError Config :=
  read reader "<inline>" none text

end Config

end MethodSkeleton
