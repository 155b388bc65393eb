import Understudy.Extract.Error
import Understudy.Text.Lines

/-!
# Why a run fails

Each cause with the data its message shows, and the report that the user sees. A report starts with
the message; what lies behind it follows, indented, and numbered if there is more than one cause.
-/

namespace Understudy.Command

/-- The format of a file of packages. -/
inductive Format
  | json
  | yaml
deriving DecidableEq, Repr

def Format.text : Format → String
  | json => "JSON"
  | yaml => "YAML"

/-- Why a run fails. -/
inductive Error
  /-- The file of packages at `path` cannot be read. -/
  | unreadable (path : Path)
  /-- The file at `path`, in the given `format`, does not hold packages. -/
  | malformed (path : Path) (format : Format)
  /-- The file of packages at `path` holds none. -/
  | noPackages (path : Path)
  /-- The file of options at `path` cannot be read or does not hold options. -/
  | options (path : Path)
  /-- An interface was asked for by name, but not of one package. -/
  | notOnePackage
  /-- No mock can be described, for the reason `cause`. -/
  | extraction (cause : ExtractError)
  /-- Writing was asked for together with an interface. -/
  | writesInterface
  /-- The directory `path` of an output file cannot be made. -/
  | directory (path : Path)
  /-- The output file `path` cannot be written. -/
  | output (path : Path)
deriving DecidableEq, Repr

namespace Error

def message : Error → String
  | unreadable path => "Error loading package information from " ++ path.text
  | malformed path format => "Failed to parse " ++ path.text ++ " as " ++ format.text
  | noPackages path => "No packages found in " ++ path.text
  | options path => "Failed to load options from " ++ path.text
  | notOnePackage => "Found more than one package; an interface argument needs exactly one"
  | extraction _ => "Error getting interface information"
  | writesInterface => "The -w option is only permitted when generating all mocks"
  | directory path => "Error creating directory " ++ path.text
  | output path => "Error creating output file " ++ path.text

/-- The messages of what lies behind an `Error`. -/
def causes : Error → List String
  | extraction cause => cause.causes
  | _ => []

end Error

/-- The lines of `s`, the first one behind `mark` and the others below it. -/
def hang (mark : String) (s : String) : List String :=
  match Text.lines s with
  | [] => []
  | first :: rest =>
    (mark ++ first) :: rest.map (String.ofList (List.replicate mark.length ' ') ++ ·)

/-- The number `i` of a cause, set to the right of five places. -/
def number (i : Nat) : String :=
  String.ofList (List.replicate (5 - (toString i).length) ' ') ++ toString i ++ ": "

/-- The lines of an `Error` on what lies behind it. -/
def causeLines : List String → List String
  | [] => []
  | [cause] => "" :: "Caused by:" :: hang "    " cause
  | causes =>
    "" :: "Caused by:" :: (causes.zipIdx.flatMap fun (cause, i) => hang (number i) cause)

/-- What the user sees of `e`, line by line. -/
def Error.report (e : Error) : List String :=
  Text.lines e.message ++ causeLines e.causes

end Understudy.Command
