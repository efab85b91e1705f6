import RolePlan.Description.Check

/-!
# Command lines

Options are written `--name value` or `--name=value`; the one with a letter of its own also as
`-c value`, `-cvalue` or `-c=value`. A value of its own does not begin with a dash, unless the dash
is all of it. No option is given twice, and there are no other arguments.
-/

namespace RolePlan

structure CommandLine where
  /-- The path of the description. -/
  config : String
  /-- The folder from which paths are seen. -/
  basePath : String := "."
  /-- Stands for the output path of the description. -/
  outputPath : Option String := none
  /-- A namespace to take out of the stored plan. -/
  remove : Option String := none
  noScaling : Bool := false
  verbose : Bool := false
  jsonLogs : Bool := false
  deriving DecidableEq, Repr

namespace CommandLine

inductive UsageFault where
  | unknown (argument : String)
  | repeated (option : String)
  | missingValue (option : String)
  | uselessValue (option : String)
  | missing (option : String)
  /-- The command line asks for help. -/
  | help
  deriving DecidableEq, Repr

def UsageFault.message : UsageFault → String
  | .unknown argument => "unexpected argument '" ++ argument ++ "' found"
  | .repeated option => "the argument '--" ++ option ++ "' cannot be used multiple times"
  | .missingValue option => "a value is required for '--" ++ option ++ "' but none was supplied"
  | .uselessValue option => "unexpected value for '--" ++ option ++ "' found"
  | .missing option => "the following required arguments were not provided: --" ++ option
  | .help =>
      "Usage: [--base-path <PATH>] [--output-path <PATH>] [--remove <NAMESPACE>] [--no-scaling] " ++
        "[--verbose] [--json-logs] --config <PATH>"

def valueOptions : List String := ["config", "base-path", "output-path", "remove"]

def switches : List String := ["no-scaling", "verbose", "json-logs"]

/-- The values of options, and the switches that are on. -/
structure Given where
  values : Table String := .empty
  on : List String := []

namespace Given

def addValue (g : Given) (option value : String) : Except UsageFault Given :=
  match g.values.add? option value with
  | some values => .ok { g with values }
  | none => .error (.repeated option)

def addSwitch (g : Given) (option : String) : Except UsageFault Given :=
  if g.on.contains option then .error (.repeated option) else .ok { g with on := option :: g.on }

/-- Adds an option that is written with two dashes; the value may still be to come. -/
def addLong (g : Given) (option : String) (value : Option String) :
    Except UsageFault (Given × Option String) :=
  if valueOptions.contains option then
    match value with
    | some value => return (← g.addValue option value, none)
    | none => .ok (g, some option)
  else if switches.contains option then
    if value.isSome then .error (.uselessValue option) else return (← g.addSwitch option, none)
  else if option = "help" && value.isNone then .error .help
  else .error (.unknown ("--" ++ option))

end Given

/-- The option at the beginning of an argument and the value behind its equals sign. -/
def splitValue (argument : List Char) : String × Option String :=
  let option := String.ofList (argument.takeWhile (· ≠ '='))
  match argument.dropWhile (· ≠ '=') with
  | [] => (option, none)
  | _ :: value => (option, some (String.ofList value))

/-- Reads an argument where no value is awaited. A value that is to come is awaited for the option
in the answer. -/
def readArgument (g : Given) (argument : String) :
    Except UsageFault (Given × Option String) :=
  match argument.toList with
  | '-' :: '-' :: rest =>
      let (option, value) := splitValue rest
      g.addLong option value
  | ['-', 'c'] => g.addLong "config" none
  | '-' :: 'c' :: '=' :: value => g.addLong "config" (some (String.ofList value))
  | '-' :: 'c' :: value => g.addLong "config" (some (String.ofList value))
  | '-' :: 'h' :: _ => .error .help
  | _ => .error (.unknown argument)

/-- Reads arguments one after another; `awaited` is an option whose value comes next. Behind two
dashes that stand alone there are no options. -/
def readArguments (g : Given) (awaited : Option String) : List String → Except UsageFault Given
  | [] =>
      match awaited with
      | some option => .error (.missingValue option)
      | none => .ok g
  | "--" :: rest =>
      match awaited, rest with
      | some option, _ => .error (.missingValue option)
      | none, [] => .ok g
      | none, argument :: _ => .error (.unknown argument)
  | argument :: rest =>
      match awaited with
      | some option => do
          if argument.startsWith "-" && argument ≠ "-" then throw (.missingValue option)
          readArguments (← g.addValue option argument) none rest
      | none => do
          let (g, awaited) ← readArgument g argument
          readArguments g awaited rest

def parse (arguments : List String) : Except UsageFault CommandLine := do
  let g ← readArguments {} none arguments
  match g.values.find? "config" with
  | none => throw (.missing "config")
  | some config =>
      return {
        config
        basePath := (g.values.find? "base-path").getD "."
        outputPath := g.values.find? "output-path"
        remove := g.values.find? "remove"
        noScaling := g.on.contains "no-scaling"
        verbose := g.on.contains "verbose"
        jsonLogs := g.on.contains "json-logs" }

variable (c : CommandLine)

def check : Except Error Unit := do
  Setting.path "config" c.config
  Setting.extension "config" ["toml"] c.config
  Setting.path "base_path" c.basePath
  if let some path := c.outputPath then Setting.path "output_path" path
  if let some ns := c.remove then Setting.notBlank "remove" ns

/-- The description with what the command line says instead. -/
def adjust (d : Description) : Description :=
  let d := match c.outputPath with
    | some path => { d with output := { d.output with path } }
    | none => d
  if c.noScaling then { d with scaling := some false } else d

end CommandLine

end RolePlan
