import Understudy.Package

/-!
# Why a mock cannot be described

Each cause with the data its message shows, and the message.
-/

namespace Understudy

/-- Something that a declaration refers to and that is not there: a `package`, a `file` or an
`object`. -/
inductive LookupFailure
  | package (index : Nat)
  | file (id : FileId) (package : String)
  | object (id : ObjectId) (package : String)
  | interface (name package : String)
  | declaration (name package : String)
deriving DecidableEq, Repr

def LookupFailure.message : LookupFailure → String
  | .package index => "package #" ++ toString index ++ " was not loaded"
  | .file id pkg => "file #" ++ toString id.toNat ++ " not found in package " ++ pkg
  | .object id pkg => "object #" ++ toString id.toNat ++ " not found in package " ++ pkg
  | .interface name pkg => "interface " ++ name ++ " not found in package " ++ pkg
  | .declaration name pkg =>
    "declaration for interface " ++ name ++ " not found in package " ++ pkg ++ "'s syntax trees"

/-- Why a declaration gives no mock. `endless` is an outcome of its own: a type that has to be
written has no finite text, so the writing does not come to an end. -/
inductive ExtractError
  | notAType (name : String)
  | notAnInterface (name : String)
  | invalidType (name : String) (diagnostics : List Diagnostic)
  | notASignature (method : String)
  | nameResolution (cause : Name.OutOfRange)
  | lookup (failure : LookupFailure)
  | mixedPackages (path : Path)
  | endless
deriving DecidableEq, Repr

namespace ExtractError

/-- The complaints `diagnostics` of the checker, one on a line. -/
def diagnosticLines (diagnostics : List Diagnostic) : String :=
  if diagnostics.isEmpty then "  (no diagnostics reported)"
  else "\n".intercalate (diagnostics.map fun d => "  " ++ d.text)

def message : ExtractError → String
  | notAType name => name ++ " is not a named/defined type"
  | notAnInterface name => name ++ " is not an interface type"
  | invalidType name diagnostics =>
    name ++ " refers to invalid types:\n" ++ diagnosticLines diagnostics
  | notASignature method => method ++ " is not a method signature"
  | nameResolution cause => "resolving import conflict: " ++ cause.message
  | lookup failure => failure.message
  | mixedPackages path =>
    "declarations from more than one package are directed to " ++ path.text
  | endless => "a type has no finite text"

/-- The message of `e` and those of what lies behind it. -/
def causes (e : ExtractError) : List String :=
  match e with
  | nameResolution cause => [e.message, cause.message]
  | _ => [e.message]

end ExtractError

end Understudy
