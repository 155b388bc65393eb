import Understudy.Codec.Mock
import Understudy.Command.Error
import Understudy.Document.Json.Writer
import Understudy.Extract.Journal

/-!
# What to generate

Either the files of all annotated declarations, or the file of one interface under a given path.
-/

namespace Understudy.Command

open Journal (Event)

/-- What a run generates, by `generate`. -/
inductive Target
  /-- Every declaration with a directive. -/
  | annotated
  /-- The interface `name`, under the path `output`. -/
  | interface (name : String) (output : Path)
deriving DecidableEq, Repr

namespace Target

/-- The mock files of a `Target`. -/
def generate (o : Options) (packages : List Package) :
    Target → Except Error (Path.Table Mock.File)
  | annotated => (Extract.generateAll o packages).mapError .extraction
  | interface name output =>
    match packages with
    | [package] => do
      let file ← (Extract.generateInterface o package name).mapError .extraction
      return [(output, file)]
    | _ => .error .notOnePackage

/-- What generating a `Target` reports. -/
def events (o : Options) (packages : List Package) : Target → List Event
  | annotated => Extract.generateEvents o packages
  | interface name _ =>
    match packages with
    | [package] => Extract.generateInterfaceEvents o package name
    | _ => []

end Target

/-- The text of all `files` together. -/
def filesText (files : Path.Table Mock.File) : String :=
  Document.Json.pretty (Codec.encodeFiles files)

/-- The text of the mock file `file`. -/
def fileText (file : Mock.File) : String :=
  Document.Json.pretty (Codec.encodeFile file)

end Understudy.Command
