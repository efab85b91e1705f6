import RolePlan.Invocation

/-!
# Command line

Runs an invocation on the file system and the variables of the process.
-/

namespace RolePlan

def attempt {α : Type} (action : IO α) : IO (Except StorageFault α) := do
  try return .ok (← action)
  catch reason => return .error (.other (toString reason))

instance : Storage IO where
  read path := attempt (IO.FS.readFile path)
  write path text := attempt do
    let folder := Path.folder path
    if !folder.isEmpty then IO.FS.createDirAll folder
    IO.FS.writeFile path text
  holds path := do
    match ← attempt (IO.FS.realPath path) with
    | .ok _ => return true
    | .error _ => return false

end RolePlan

open RolePlan in
def main (arguments : List String) : IO UInt32 := do
  let outcome ← CommandLine.invoke (fun name => IO.getEnv name) arguments
  outcome.warnings.forM fun warning => IO.eprintln ("WARN " ++ warning.message)
  outcome.output.forM IO.println
  outcome.errors.forM IO.eprintln
  return UInt32.ofNat outcome.exitCode
