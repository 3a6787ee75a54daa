/-
# `MethodSkeleton.CommandLine.Run` — what the program does

The stages run one after the other and the first that fails ends the program: the
configuration, its template files, the list of names if that is all that was asked for, the
name of the template, the template, the signature, and then what generating takes.  Only a
run without a failure prints anything.

A failure's report is its message and, behind it, its cause; the messages about files
already hold their cause, so it stands there twice.
-/
import MethodSkeleton.CommandLine.Arguments
import MethodSkeleton.Config.Load
import MethodSkeleton.Generate

namespace MethodSkeleton

/-- The line that tells the version. -/
def versionLine : String := "skelgen 0.1.0\n"

/-- How the program is used. -/
def usage : String :=
  "Usage:\n1. Copy the method you want to test\n2. Run 'skelgen [-f] -t TemplateName'\n" ++
    "3. Paste the skeleton that has been written to your clipboard\n"

/-- What ends the program before it is done. -/
inductive Failure
  | config (e : ConfigError)
  | invalidName
  | registry (e : RegistryError)
  | input (why : ReadFault)
  | clipboard
  | generate (e : GenerateError)
deriving DecidableEq, Repr

/-- The cause that a message about a configuration is followed by. -/
def ConfigError.cause : ConfigError → String
  | unreadable _ why => why.message
  | invalid refusal => refusal.reason
  | template _ _ why => why.message

/-- The message of a failure and its cause. -/
def Failure.report : Failure → String
  | config e => e.message ++ ": " ++ e.cause
  | invalidName => "invalid TemplateName"
  | registry e => e.message
  | input why => "failed to read stdin: " ++ why.message
  | clipboard => "clipboard not available"
  | generate e => e.message

/-- What the program has to do with the world, and the libraries that it leaves reading documents
and filling in templates to. -/
structure Host (m : Type → Type) where
  files : Files m
  environmentConfig : Option String
  defaultConfig : Option String
  input : m ByteArray
  reader : Document.Reader := Toml.reader
  engine : TemplateEngine := .core

/-- What is left of a run. -/
structure Outcome where
  exit : Nat
  out : String
  err : String
deriving DecidableEq, Repr

variable {m : Type → Type} [Monad m]

/-- The signature on the standard input. -/
def Host.readSignature (host : Host m) (fromStdin : Bool) : ExceptT Failure m String := do
  if fromStdin then
    let bytes ← host.input
    (ExceptT.mk (pure (textOfBytes bytes))).adapt .input
  else throw .clipboard

/-- The name of the template that was asked for. -/
def Options.templateName (o : Options) : Except Failure String :=
  match o.template with
  | some name => if name = "" then .error .invalidName else .ok name
  | none => .error .invalidName

/-- Runs the stages and answers the text to print. -/
def Options.run (host : Host m) (o : Options) : ExceptT Failure m String := do
  if o.serveClipboard then throw .clipboard
  let config ←
    (Config.discover host.files o.config host.defaultConfig host.reader).adapt .config
  let registry ← (Registry.ofConfig host.files config).adapt .config
  if o.list then return String.join (registry.names.map (· ++ "\n"))
  let name ← ExceptT.mk (pure o.templateName)
  let template ← ExceptT.mk (pure ((registry.find name).mapError .registry))
  let signature ← host.readSignature o.fromStdin
  let text ← ExceptT.mk (pure
    ((generate signature template (o.formatted || config.formatted) host.engine).mapError .generate))
  if o.toStdout then return text else throw .clipboard

/-- What a run leaves. -/
def Outcome.ofResult : Except Failure String → Outcome
  | .ok text => ⟨0, text, ""⟩
  | .error failure => ⟨1, "", failure.report ++ "\n" ++ usage⟩

/-- Runs the program. -/
def runProgram (host : Host m) (arguments : List String) : m Outcome := do
  match Request.ofArguments arguments host.environmentConfig with
  | .error e => return ⟨2, "", e.message ++ "\n"⟩
  | .ok .version => return ⟨0, versionLine, ""⟩
  | .ok .help => return ⟨0, usage, ""⟩
  | .ok (.generate o) => return .ofResult (← (o.run host).run)

end MethodSkeleton
