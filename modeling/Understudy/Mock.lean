import Understudy.Import
import Understudy.Position

/-!
# Mock descriptions

What a template needs in order to write a mock: one file for each output path, with its imports and
its interfaces. Types are written out, with prefixes that fit the imports of the file.

* `Mock.Params`, `Mock.Results`, `Mock.TypeParams`: lists with the texts a template asks for.
* `Mock.Method.sameSignature`: when two methods count as one.
-/

namespace Understudy.Mock

/-- A type parameter `name` of an interface. -/
structure TypeParam where
  name : String
  constraint : String
deriving DecidableEq, Repr, Inhabited

abbrev TypeParams := List TypeParam

namespace TypeParams

/-- The `items` in brackets, or nothing if there are none. -/
def bracketed (items : List String) : String :=
  if items.isEmpty then "" else "[" ++ ", ".intercalate items ++ "]"

/-- As in a declaration, `[T any, U fmt.Stringer]`. -/
def text (ps : TypeParams) : String :=
  bracketed (ps.map fun p => p.name ++ " " ++ p.constraint)

/-- As in an instance, `[T, U]`. -/
def names (ps : TypeParams) : String :=
  bracketed (ps.map (·.name))

end TypeParams

/-- A parameter. The `type` of a `variadic` one is that of the slice it stands for. -/
structure Param where
  name : String
  type : String
  variadic : Bool := false
deriving DecidableEq, Repr, Inhabited

namespace Param

/-- Whether `p` is a context. -/
def isContext (p : Param) : Bool := p.type = "context.Context"

/-- The type of `p` as a parameter list shows it. -/
def declaredType (p : Param) : String :=
  match p.variadic, p.type.toList with
  | true, '[' :: ']' :: elem => "..." ++ String.ofList elem
  | _, _ => p.type

end Param

abbrev Params := List Param

namespace Params

/-- The name of the parameter at `index`: its own, or one made from `index` if it has none. -/
def argName (ps : Params) (index : Nat) : String :=
  match ps[index]? with
  | some p => if p.name = "" ∨ p.name = "_" then "param" ++ toString (index + 1) else p.name
  | none => "param" ++ toString (index + 1)

/-- A parameter list for `ps` in which every parameter has a name. -/
def namedText (ps : Params) : String :=
  ", ".intercalate (ps.mapIdx fun i p => ps.argName i ++ " " ++ p.declaredType)

/-- The arguments that pass all of `ps` on. -/
def argsText (ps : Params) : String :=
  ", ".intercalate (ps.mapIdx fun i p => ps.argName i ++ if p.variadic then "..." else "")

/-- The types of `ps` alone, as in a function type. -/
def typesText (ps : Params) : String :=
  "(" ++ ", ".intercalate (ps.map (·.declaredType)) ++ ")"

end Params

/-- A result. Its `name` is empty if it has none. -/
structure Result where
  name : String
  type : String
deriving DecidableEq, Repr, Inhabited

/-- The result `r` with its name if it has one. -/
def Result.text (r : Result) : String :=
  if r.name = "" then r.type else r.name ++ " " ++ r.type

abbrev Results := List Result

/-- The results as they follow a parameter list. One result without a `name` stands alone. -/
def Results.text : Results → String
  | [] => ""
  | [r] => if r.name = "" then r.type else "(" ++ r.text ++ ")"
  | rs => "(" ++ ", ".intercalate (rs.map Result.text) ++ ")"

/-- A method, with `origin`, the text of the interface that declares it. -/
structure Method where
  name : String
  params : Params
  results : Results
  origin : String
  position : Position
deriving DecidableEq, Repr, Inhabited

namespace Method

/-- What tells `m` apart from other methods: the name and the types of parameters and results. -/
def signature (m : Method) : String × List (String × Bool) × List String :=
  (m.name, m.params.map fun p => (p.type, p.variadic), m.results.map (·.type))

/-- Whether `m` and `n` count as one, whatever their parameters are called and wherever they were
declared. -/
def sameSignature (m n : Method) : Bool := m.signature = n.signature

def takesContext (m : Method) : Bool := m.params.any Param.isContext

/-- The first method of each `signature`. -/
def distinct : List Method → List Method
  | [] => []
  | m :: rest => m :: (distinct rest).filter fun n => !m.sameSignature n

end Method

/-- An interface to be mocked, with the `methods` of all that it embeds. -/
structure Interface where
  name : String
  typeParams : TypeParams
  methods : List Method
deriving DecidableEq, Repr, Inhabited

/-- A file of mocks in `package`. -/
structure File where
  package : String
  imports : List Import
  interfaces : List Interface
deriving DecidableEq, Repr, Inhabited

end Understudy.Mock
