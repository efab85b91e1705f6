import RolePlan.CommandLine
import RolePlan.Composition
import RolePlan.Description.Read

/-!
# Invocations

An invocation follows a command line: it reads the description, composes the plan or takes a role
out of it, and says what it did. What it returns is the exit code and the lines for the user.
-/

namespace RolePlan

structure Outcome where
  exitCode : Nat
  output : List String := []
  errors : List String := []
  warnings : List Warning := []

namespace Outcome

/-- The work was not begun or not finished. Faulty documents have an exit code of their own. -/
def refused (e : Error) (warnings : List Warning := []) : Outcome :=
  { exitCode := if e.isDataError then 2 else 1, errors := ["❌ " ++ e.message], warnings }

def stored (d : Description) (s : Description.Summary) (warnings : List Warning) : Outcome :=
  { exitCode := 0
    output := [
      "✅ Plan '" ++ d.name ++ "' written",
      "📁 Template: " ++ s.templatePath,
      "📁 Environment: " ++ s.environmentPath]
    warnings }

end Outcome

namespace CommandLine

variable {m : Type → Type} [Monad m]

def lookUp (valueOf : String → m (Option String)) (text : String) : m (Table String) := do
  let mut known : Table String := .empty
  for name in Placeholder.names text do
    if let some value ← valueOf name then known := known.put name value
  return known

variable [Storage m]

def readDescription (valueOf : String → m (Option String)) (path : String) :
    m (Except Error Description) := do
  match ← Storage.read path with
  | .error fault => return .error (.storage fault)
  | .ok text =>
      let known ← lookUp valueOf text
      return Description.parse known.find? text

def job (c : CommandLine) (d : Description) : Job (Below m) Description.Summary :=
  match c.remove with
  | some ns => d.remove ns
  | none => d.run

def perform (c : CommandLine) (d : Description) : m Outcome := do
  match d.check with
  | .error e => return .refused e
  | .ok () =>
      let (result, warnings) ← (Job.start (c.job d)).run c.basePath
      match result with
      | .error e => return .refused e warnings
      | .ok summary => return .stored d summary warnings

def follow (valueOf : String → m (Option String)) (c : CommandLine) : m Outcome := do
  match c.check with
  | .error e => return .refused e
  | .ok () =>
      match ← readDescription valueOf (Path.join c.basePath c.config) with
      | .error e => return { exitCode := 1, errors := ["Error: " ++ e.message] }
      | .ok d => c.perform (c.adjust d)

def invoke (valueOf : String → m (Option String)) (arguments : List String) : m Outcome := do
  match parse arguments with
  | .error .help => return { exitCode := 0, output := [UsageFault.help.message] }
  | .error fault => return { exitCode := 2, errors := ["error: " ++ fault.message] }
  | .ok c => c.follow valueOf

end CommandLine

end RolePlan
