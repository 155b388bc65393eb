import Understudy.Codec.Options
import Understudy.Codec.Package
import Understudy.Command.Error
import Understudy.Document.Json
import Understudy.Document.Yaml

/-!
# Packages and options from files

The name of a file of packages tells its format: YAML by its extension, else JSON.
-/

namespace Understudy.Command

open Document (Value)

namespace Format

def ofPath (path : Path) : Format :=
  match path.extension? with
  | some "yaml" | some "yml" => yaml
  | _ => json

def read? : Format → String → Option Value
  | json => Document.Json.read?
  | yaml => Document.Yaml.read?

end Format

/-- The packages that `text`, that of the file at `path`, holds. There has to be one. -/
def packagesOf (path : Path) (text : String) : Except Error (List Package) :=
  let format := Format.ofPath path
  match (format.read? text).bind Codec.decodePackages with
  | none => .error (.malformed path format)
  | some [] => .error (.noPackages path)
  | some packages => .ok packages

/-- The packages of the file at `path`, given its text if it can be read. -/
def packagesOf? (path : Path) : Option String → Except Error (List Package)
  | none => .error (.unreadable path)
  | some text => packagesOf path text

/-- The options of the file at `path`, given its `text` if it can be read. -/
def optionsOf? (path : Path) (text : Option String) : Except Error Options :=
  match text.bind Codec.readOptions? with
  | none => .error (.options path)
  | some o => .ok o

end Understudy.Command
