import Understudy.Builder

/-!
# Sample packages

Small packages in the form a loader leaves them, one for each thing worth trying: colliding imports,
type parameters, a diamond of embedded interfaces, a package with errors, and an interface with many
kinds of methods.
-/

namespace Understudy

/-- The sample packages. -/
inductive Sample
  | sink
  | generic
  | diamond
  | broken
  | myInterface
deriving DecidableEq, Repr

namespace Sample

open Build

def all : List Sample := [sink, generic, diamond, broken, myInterface]

/-- The name of a `Sample`, which is also that of its file. -/
def name : Sample → String
  | sink => "sink"
  | generic => "generic"
  | diamond => "diamond"
  | broken => "broken"
  | myInterface => "my_interface"

def directivePath : String := "github.com/acme/mock/examples/directive"

def internalPath : String := "github.com/acme/mock/examples/directive/internal"

/-- The interface `interfaceName` directed to the shared file, whose method has parameters from the
packages `atomic`, `sort` and `testing`. -/
def sinkSource (file interfaceName atomic sort testing : String) : Build Unit := do
  let file ← Build.file ("examples/directive/" ++ file)
  for path in [atomic, sort, testing] do
    import_ file { path }
  let sortInterface ← foreign sort "Interface" (← interface [] [])
  let testingT ← pointer (← foreign testing "T" (← struct []))
  let atomicBool ← pointer (← foreign atomic "Bool" (← struct []))
  let sig ← signature [⟨"", sortInterface⟩, ⟨"", testingT⟩, ⟨"", atomicBool⟩] [] false
  let iface ← interface [method file 24 "f" sig] []
  let _ ← declareType file interfaceName iface
    ["// " ++ interfaceName ++ " feeds the shared sink file.", "//", "//go:mock sink_mock.go"] 23

/-- Three files that direct their interfaces to one file and import different packages under the
same names, by `sinkSource`. -/
def sinkSteps : Build Unit := do
  let one := internalPath ++ "/one"
  let two := internalPath ++ "/two"
  sinkSource "source1.go" "Source1" (one ++ "/atomic") (one ++ "/sort") (one ++ "/testing")
  sinkSource "source2.go" "Source2" (two ++ "/atomic") (two ++ "/sort") (two ++ "/testing")
  sinkSource "source3.go" "Source3" "sync/atomic" "sort" "testing"

/-- An interface with the type parameters `T` and `U`. -/
def genericSteps : Build Unit := do
  let file ← Build.file "examples/directive/generic.go"
  import_ file { path := internalPath }
  let byte ← basic .byte
  let internal ← foreign internalPath "Internal" (← struct [])
  let tConstraint ← interface [] [← union [byte, internal]]
  let uConstraint ← any
  let t ← typeParam "T" tConstraint
  let u ← typeParam "U" uConstraint
  let getT ← signature [] [⟨"", t⟩] false
  let getU ← signature [] [⟨"", u⟩] false
  let iface ← interface [method file 9 "GetT" getT, method file 10 "GetU" getU] []
  let (_, id) ← declareType file "Generic" iface
    ["// Generic is a sample generic interface with a complex type parameter list.", "//",
      "//go:mock"] 8
  setTypeParams id [("T", tConstraint), ("U", uConstraint)]

/-- An interface that embeds another one on two ways. -/
def diamondSteps : Build Unit := do
  let file ← Build.file "shapes/shapes.go"
  let error ← Build.error
  let bytes ← slice (← basic .byte)
  let int ← basic .int
  let close ← signature [] [⟨"", error⟩] false
  let (_, base) ← declareType file "Base" (← interface [method file 11 "Close" close] []) [] 10
  let transfer ← signature [⟨"p", bytes⟩] [⟨"n", int⟩, ⟨"err", error⟩] false
  let (_, left) ← declareType file "Left" (← interface [method file 16 "Read" transfer] [base])
    [] 15
  let (_, right) ← declareType file "Right" (← interface [method file 21 "Write" transfer] [base])
    [] 20
  let flush ← signature [] [⟨"", error⟩] false
  let iface ← interface [method file 28 "Flush" flush] [left, right]
  let _ ← declareType file "Diamond" iface ["//go:mock"] 25

/-- A package of which one interface could not be resolved, and that asks for a mock of something
that is no interface. -/
def brokenSteps : Build Unit := do
  let api ← Build.file "broken/api.go"
  let other ← Build.file "broken/other.go"
  let ping ← signature [] [⟨"", ← Build.error⟩] false
  let good ← interface [method api 5 "Ping" ping] []
  let _ ← declareType api "Good" good ["//go:mock api_mock.go"] 4
  let fetch ← signature [⟨"w", ← basic .invalid⟩] [] false
  let bad ← interface [method api 10 "Fetch" fetch] []
  let _ ← declareType api "Bad" bad ["//go:mock api_mock.go"] 9
  diagnostic "broken/api.go:10:10" "undefined: Widget"
  let stop ← signature [] [] false
  let fine ← interface [method other 4 "Stop" stop] []
  let _ ← declareType other "Fine" fine ["//go:mock"] 3
  let _ ← declareType other "Counter" (← basic .int) ["//go:mock counter_mock.go"] 8

/-- Methods on consecutive lines of a file, from line `line` on. -/
def methodsFrom (file : FileId) (line : UInt32) :
    List (String × List Var × List Var × Bool) → Build (List MethodSpec)
  | [] => return []
  | (name, params, results, variadic) :: rest => do
    let m := method file line name (← signature params results variadic)
    return m :: (← methodsFrom file (line + 1) rest)

/-- An interface with imports of every style, a context, a reference to itself and an embedded
interface from another file. -/
def myInterfaceSteps : Build Unit := do
  let file ← Build.file "examples/directive/myInterface.go"
  let localFile ← Build.file "examples/directive/local.go"
  for i in ([⟨"context", none⟩, ⟨"fmt", none⟩, ⟨"html/template", none⟩, ⟨"os", some "."⟩,
      ⟨"text/template", some "renamed"⟩, ⟨"embed", some "_"⟩, ⟨internalPath, none⟩] :
      List Import) do
    import_ file i
  import_ localFile { path := "time" }
  let int ← basic .int
  let string ← basic .string
  let strings ← slice string
  let error ← Build.error
  let internal ← foreign internalPath "Internal" (← struct [])
  let htmlTemplate ← foreign "html/template" "Template" (← struct [])
  let textTemplate ← foreign "text/template" "Template" (← struct [])
  let osFile ← foreign "os" "File" (← struct [])
  let context ← foreign "context" "Context" (← interface [] [])
  let toText ← signature [] [⟨"", string⟩] false
  let stringer ← foreign "fmt" "Stringer" (← interface [method localFile 0 "String" toText] [])
  let embedsStringer ← interface [] [stringer]
  let chan ← type (.chan .both int)
  let intMap ← map int int
  let duration ← foreign "time" "Duration" (← basic .int64)
  let time ← foreign "time" "Time" (← struct [])
  let deadline ← signature [] [⟨"", time⟩] false
  let timeout ← signature [⟨"d", duration⟩] [] false
  let localInterface ← interface
    [method localFile 6 "Deadline" deadline, method localFile 7 "Timeout" timeout] []
  let (_, localType) ← declareType localFile "Local" localInterface [] 5
  let self ← reserve
  let methods ← methodsFrom file 20 [
    ("NoParamsOrReturn", [], [], false),
    ("UnnamedVariadicParam", [⟨"", strings⟩], [], true),
    ("NamedParam", [⟨"str", string⟩], [], false),
    ("InternalTypeParam", [⟨"internal", internal⟩], [], false),
    ("ImportedParam", [⟨"tmpl", htmlTemplate⟩], [], false),
    ("RenamedImportParam", [⟨"tmpl", textTemplate⟩], [], false),
    ("DotImportParam", [⟨"file", osFile⟩], [], false),
    ("SelfReferentialParam", [⟨"intf", self⟩], [], false),
    ("EmbeddedInterfaceParam", [⟨"intf", embedsStringer⟩], [], false),
    ("ChannelParam", [⟨"chanParam", chan⟩], [], false),
    ("MapReturn", [], [⟨"", intMap⟩], false),
    ("MultipleUnnamedReturn", [], [⟨"", int⟩, ⟨"", error⟩], false),
    ("NamedReturn", [], [⟨"err", error⟩], false),
    ("ContextParam", [⟨"ctx", context⟩, ⟨"id", string⟩], [], false)]
  let iface ← interface methods [localType]
  let _ ← declareReserved file self "MyInterface" iface
    ["// MyInterface is a sample interface with a large number of",
      "// methods of different signatures.", "//", "//go:mock"] 19

/-- The packages of a `Sample`. -/
def packages : Sample → Except Builder.Error (List Package)
  | sink => return [← Build.package directivePath "directive" sinkSteps]
  | generic => return [← Build.package directivePath "directive" genericSteps]
  | diamond => return [← Build.package "github.com/acme/shapes" "shapes" diamondSteps]
  | broken => return [← Build.package "github.com/acme/broken" "broken" brokenSteps]
  | myInterface => return [← Build.package directivePath "directive" myInterfaceSteps]

end Sample

end Understudy
