/-
# `MethodSkeleton.Config.Load` — configurations and registries from files

A configuration that is asked for by its path has to be there; the default one is taken if
it is a file.  A registry is made from a configuration all at once: its templates are read
in the order of their names, the first that cannot be read is the error, and otherwise they
are put over the built-in ones.
-/
import MethodSkeleton.Config.Basic
import MethodSkeleton.Files.Path
import MethodSkeleton.Registry.Builtin

namespace MethodSkeleton

variable {m : Type → Type} [Monad m]

namespace Config

/-- Reads the configuration at a path; its own paths start in the directory it lies in. -/
def load (reader : Document.Reader) (files : Files m) (path : String) :
    ExceptT ConfigError m Config := do
  let text ← (files.readText path).adapt (.unreadable path)
  ExceptT.mk (pure (read reader path (Path.parent? path) text))

/-- The configuration that was asked for, or else the default one, or else an empty one. -/
def discover (files : Files m) (asked default : Option String)
    (reader : Document.Reader := Toml.reader) : ExceptT ConfigError m Config := do
  match asked, default with
  | some path, _ => load reader files path
  | none, some path =>
    if ← files.isFile path then load reader files path else return empty
  | none, none => return empty

/-- The path of a template's file. -/
def resolve (c : Config) (path : String) : String :=
  match c.base with
  | some directory => Path.join directory path
  | none => path

/-- The text of a template. -/
def readSource (files : Files m) (c : Config) (name : String) :
    TemplateSource → ExceptT ConfigError m String
  | .inline text => return text
  | .file path => (files.readText (c.resolve path)).adapt (.template name (c.resolve path))

/-- The texts of templates, in their order. -/
def readSources (files : Files m) (c : Config) :
    List (String × TemplateSource) → ExceptT ConfigError m (List (String × String))
  | [] => return []
  | (name, source) :: rest => do
    let text ← readSource files c name source
    return (name, text) :: (← readSources files c rest)

/-- The texts of all configured templates. -/
def readTemplates (files : Files m) (c : Config) : ExceptT ConfigError m (List (String × String)) :=
  readSources files c c.templates.entries

end Config

/-- The built-in templates and, over them, the configured ones. -/
def Registry.ofConfig (files : Files m) (c : Config) : ExceptT ConfigError m Registry := do
  return Registry.builtin.insertAll (← c.readTemplates files)

end MethodSkeleton
