import Understudy.Command.Help
import Understudy.Command.Run

/-!
# The command

Runs the command on the files of the system. The journal and errors go to the error output.
-/

namespace Understudy.Command

/-- Access to the files of the system in `IO`. -/
def systemFiles : Files IO where
  read path := do
    try return some (← IO.FS.readFile path.text)
    catch _ => return none
  makeDirectories path := do
    try
      IO.FS.createDirAll path.text
      return true
    catch _ => return false
  write path text := do
    try
      IO.FS.writeFile path.text text
      return true
    catch _ => return false

/-- Runs the command that `words` spell out, and gives its exit code. -/
def execute (words : List String) : IO UInt32 := do
  let environment ← IO.getEnv "IFACEMOCK_CONFIG"
  match Arguments.read words environment with
  | .error .help =>
    IO.print (helpText environment)
    return 0
  | .error .usage =>
    IO.eprint usageText
    return 2
  | .ok a =>
    let (result, events) ← (run systemFiles a).run []
    (Journal.lines a.verbosity events).forM fun line => IO.eprintln line
    match result with
    | .ok text =>
      IO.print text
      return 0
    | .error e =>
      IO.eprintln ("Error: " ++ "\n".intercalate e.report)
      return 1

end Understudy.Command

def main (words : List String) : IO UInt32 :=
  Understudy.Command.execute words
