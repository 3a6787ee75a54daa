/-
# `MethodSkeleton.CommandLine.Arguments` — reading the command line

Options are long or short; short ones may be written together, and the last of a group may
take the rest of the argument, or the next one, as its value.  A value that is an argument
of its own does not begin with a dash, unless it is only that.  No option is given twice and
there are no other arguments.  Asking for the version or for help ends the reading.
-/

namespace MethodSkeleton

/-- What can be set on the command line. -/
structure Options where
  template : Option String
  config : Option String
  formatted : Bool
  fromStdin : Bool
  toStdout : Bool
  list : Bool
  serveClipboard : Bool
deriving DecidableEq, Repr

/-- The options without a value. -/
inductive Switch
  | format
  | stdin
  | stdout
  | list
  | serveClipboard
deriving DecidableEq, Repr

/-- The options with a value. -/
inductive Setting
  | template
  | config
deriving DecidableEq, Repr

/-- What the command line asks for. -/
inductive Request
  | generate (o : Options)
  | version
  | help
deriving DecidableEq, Repr

/-- Why a command line is refused. -/
inductive ArgumentError
  | unexpected (argument : String)
  | repeated
  | missingValue
  | emptyValue
deriving DecidableEq, Repr

/-- The wording of an error. -/
def ArgumentError.message : ArgumentError → String
  | unexpected argument => "error: unexpected argument '" ++ argument ++ "'"
  | repeated => "error: an option cannot be used multiple times"
  | missingValue => "error: an option needs a value"
  | emptyValue => "error: an option needs a value that is not empty"

namespace Options

/-- The options when nothing is set. -/
def unset : Options := ⟨none, none, false, false, false, false, false⟩

/-- Whether a switch is on. -/
def isOn (o : Options) : Switch → Bool
  | .format => o.formatted
  | .stdin => o.fromStdin
  | .stdout => o.toStdout
  | .list => o.list
  | .serveClipboard => o.serveClipboard

/-- The options with a switch on that was off. -/
def turnOn (o : Options) (s : Switch) : Except ArgumentError Options :=
  if o.isOn s then .error .repeated
  else
    .ok <| match s with
      | .format => { o with formatted := true }
      | .stdin => { o with fromStdin := true }
      | .stdout => { o with toStdout := true }
      | .list => { o with list := true }
      | .serveClipboard => { o with serveClipboard := true }

/-- The options with a value that was not set; the path of a configuration is not empty. -/
def set (o : Options) (value : String) : Setting → Except ArgumentError Options
  | .template =>
    if o.template.isSome then .error .repeated else .ok { o with template := some value }
  | .config =>
    if o.config.isSome then .error .repeated
    else if value = "" then .error .emptyValue
    else .ok { o with config := some value }

end Options

/-- What a name on the command line stands for. -/
inductive OptionName
  | switch (s : Switch)
  | setting (s : Setting)
  | version
  | help
deriving DecidableEq, Repr

/-- The long names. -/
def OptionName.ofLong? : List Char → Option OptionName := fun cs =>
  match String.ofList cs with
  | "template" => some (.setting .template)
  | "format" => some (.switch .format)
  | "config" => some (.setting .config)
  | "stdin" => some (.switch .stdin)
  | "stdout" => some (.switch .stdout)
  | "list" => some (.switch .list)
  | "serve-clipboard" => some (.switch .serveClipboard)
  | "version" => some .version
  | "help" => some .help
  | _ => none

/-- The short names. -/
def OptionName.ofShort? : Char → Option OptionName
  | 't' => some (.setting .template)
  | 'f' => some (.switch .format)
  | 'V' => some .version
  | 'h' => some .help
  | _ => none

/-- What an argument comes to: options, options and a setting whose value is still to come,
or a request that ends the reading. -/
inductive Step
  | go (o : Options)
  | wait (o : Options) (s : Setting)
  | stop (r : Request)

/-- Reads short options written together. -/
def readShort (argument : String) : Options → List Char → Except ArgumentError Step
  | o, [] => .ok (.go o)
  | o, c :: cs =>
    match OptionName.ofShort? c with
    | some (.switch s) => (o.turnOn s).bind fun o => readShort argument o cs
    | some (.setting s) =>
      match cs with
      | [] => .ok (.wait o s)
      | '=' :: value => (o.set (String.ofList value) s).map .go
      | value => (o.set (String.ofList value) s).map .go
    | some .version => .ok (.stop .version)
    | some .help => .ok (.stop .help)
    | none => .error (.unexpected argument)

/-- Reads a long option, with its value if that follows an equals sign. -/
def readLong (argument : String) (o : Options) (cs : List Char) : Except ArgumentError Step :=
  match OptionName.ofLong? (cs.takeWhile (· != '=')), cs.dropWhile (· != '=') with
  | some (.switch s), [] => (o.turnOn s).map .go
  | some (.setting s), [] => .ok (.wait o s)
  | some (.setting s), _ :: value => (o.set (String.ofList value) s).map .go
  | some .version, [] => .ok (.stop .version)
  | some .help, [] => .ok (.stop .help)
  | _, _ => .error (.unexpected argument)

/-- Reads one argument. -/
def readArgument (o : Options) (argument : String) : Except ArgumentError Step :=
  match argument.toList with
  | '-' :: '-' :: cs => readLong argument o cs
  | '-' :: c :: cs => readShort argument o (c :: cs)
  | _ => .error (.unexpected argument)

/-- Whether an argument cannot be a value. -/
def looksLikeOption (argument : String) : Bool :=
  argument.toList.head? == some '-' && argument != "-"

/-- Reads arguments; `waiting` is the setting, if any, whose value comes next. -/
def readArguments : Options → Option Setting → List String → Except ArgumentError Request
  | _, some _, [] => .error .missingValue
  | o, some s, value :: rest =>
    if looksLikeOption value then .error .missingValue
    else (o.set value s).bind fun o => readArguments o none rest
  | o, none, [] => .ok (.generate o)
  | o, none, argument :: rest =>
    if argument = "--" then
      match rest with
      | [] => .ok (.generate o)
      | stray :: _ => .error (.unexpected stray)
    else
      match readArgument o argument with
      | .error e => .error e
      | .ok (.go o) => readArguments o none rest
      | .ok (.wait o s) => readArguments o (some s) rest
      | .ok (.stop r) => .ok r

/-- What a command line asks for; the environment may name the configuration instead. -/
def Request.ofArguments (arguments : List String) (environment : Option String) :
    Except ArgumentError Request :=
  match readArguments .unset none arguments with
  | .ok (.generate o) =>
    match o.config, environment with
    | none, some path => (o.set path .config).map .generate
    | _, _ => .ok (.generate o)
  | answer => answer

end MethodSkeleton
