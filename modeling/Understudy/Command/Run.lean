import Understudy.Command.Arguments
import Understudy.Command.Files
import Understudy.Command.Load
import Understudy.Command.Target

/-!
# A run of the command

Packages are loaded first, then options, and then the target is generated. Its files are printed
together, or written one by one beside their output paths. A failure keeps what was done before it.
-/

namespace Understudy.Command

open Journal (Event)

/-- Steps that reach files by steps in `m`, report events and may fail with an `Error`. -/
abbrev Task (m : Type → Type) := ExceptT Error (StateT (List Event) m)

namespace Task

variable {m : Type → Type} [Monad m]

/-- Reports `events`. -/
def report (events : List Event) : Task m Unit := modify (· ++ events)

/-- Fails with `e` unless the step `worked`. -/
def ensure (worked : m Bool) (e : Error) : Task m Unit := do
  let worked : Bool ← (monadLift worked : StateT (List Event) m Bool)
  if worked then return () else throw e

/-- Takes over a result or an `Error`. -/
def ofExcept {α : Type} : Except Error α → Task m α
  | .ok a => pure a
  | .error e => throw e

end Task

/-- The target of a run with the arguments `a`, and whether its files are written. -/
def Arguments.target (a : Arguments) : Except Error (Target × Bool) :=
  match a.interface with
  | none => .ok (.annotated, a.write)
  | some name =>
    if a.write then .error .writesInterface
    else
      let output := a.output.getD ""
      .ok (.interface name ⟨output⟩, output ≠ "")

/-- The output file that `a` sets for directives. -/
def Arguments.defaultOutputFile (a : Arguments) : Option String :=
  if a.interface.isSome then none else a.output

section

variable {m : Type → Type} [Monad m] (files : Files m)

/-- Loads the packages of the file at `path`. -/
def loadPackages (path : Path) : Task m (List Package) := do
  let text : Option String ← (monadLift (files.read path) : StateT (List Event) m _)
  let packages ← Task.ofExcept (packagesOf? path text)
  Task.report [.loaded packages.length path]
  return packages

/-- Loads the options of the file `config`, if one is given. A given `defaultOutputFile` wins over
the one in the file. -/
def loadOptions (config : Option Path) (defaultOutputFile : Option String) : Task m Options := do
  let o ←
    match config with
    | none => pure {}
    | some path => do
      let text : Option String ← (monadLift (files.read path) : StateT (List Event) m _)
      Task.ofExcept (optionsOf? path text)
  return match defaultOutputFile with
    | none => o
    | some file => o.withDefaultOutputFile file

/-- The place where the description of the mock file `output` is written. -/
def descriptionPath (output : Path) : Path := ⟨output.text ++ ".json"⟩

/-- Writes the description `file` of the mock file `output`, in a directory made for it. -/
def writeFile (output : Path) (file : Mock.File) : Task m Unit := do
  let target := descriptionPath output
  match target.parent? with
  | none => pure ()
  | some parent =>
    if parent.text = "" then pure ()
    else Task.ensure (files.makeDirectories parent) (.directory parent)
  Task.ensure (files.write target (fileText file)) (.output target)
  Task.report [.wrote target]

/-- Runs the command with the arguments `a`, and gives what it prints. -/
def run (a : Arguments) : Task m String := do
  let packages ← loadPackages files a.data
  let (target, write) ← Task.ofExcept a.target
  let o ← loadOptions files a.config a.defaultOutputFile
  Task.report (target.events o packages)
  let result ← Task.ofExcept (target.generate o packages)
  Task.report [.generated result.length]
  if write then
    result.forM fun (output, file) => writeFile files output file
    return ""
  else return filesText result ++ "\n"

end

end Understudy.Command
