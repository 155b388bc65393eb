import Understudy.TypeText

/-!
# Writing types

A qualifier decides how the packages of named types are written, and may keep a record of them.
Writing a type follows its parts. A node met again while it is being written is cut short, except
that named types and aliases do not count: they are written by name, so the walk below them starts
with what surrounds them.

* `TypeGraph.write?`: writing with at most so many types inside one another.
* `TypeGraph.typeText?`, `TypeGraph.signatureText?`: the text of a type and of a signature.
* `TypeGraph.structuralText?`: the text with full package paths, by which types are told apart.

Named types that stand in the brackets of each other round a circle have no finite text. For a type
that leads into such a circle the result is `none`, at every depth.
-/

namespace Understudy

/-- Decides what is written before a name of a package, from a state in `σ`. The empty text stands
for no prefix. -/
abbrev Qualifier (σ : Type) := PackageRef → StateM σ String

/-- Writes `p.path`, the full path, for every package `p`. -/
def Qualifier.fullPath : Qualifier Unit := fun p => pure p.path

/-- Writes no prefix and lists the packages in `met`, in the order in which they are met. -/
def Qualifier.listing : Qualifier (List PackageRef) := fun p met => ("", met ++ [p])

/-- The `answer` of a qualifier as it is written. -/
def dotted (answer : String) : String :=
  if answer = "" then "" else answer ++ "."

namespace TypeNode

/-- The types being written inside `node`, given those around it. A type written by name is not one
of them. -/
def enter (node : TypeNode) (id : TypeId) (active : List TypeId) : List TypeId :=
  if node.aliased?.isSome then active else id :: active

end TypeNode

namespace TypeGraph

variable {σ : Type}

/-- Writes a part, given by `type` how to write a type. -/
def writePart? (q : Qualifier σ) (type : TypeId → StateT σ Option String) :
    TypePart → StateT σ Option String
  | .text s => pure s
  | .package p => fun s => some (dotted (q p s).1, (q p s).2)
  | .type id => type id

/-- Writes `parts` one after the other, given by `type` how to write a type. -/
def writeParts? (q : Qualifier σ) (type : TypeId → StateT σ Option String) (parts : List TypePart) :
    StateT σ Option String :=
  String.join <$> parts.mapM (writePart? q type)

/-- Writes a type inside the types of `active`, with at most so many types inside one another. -/
def write? (g : TypeGraph) (q : Qualifier σ) : Nat → List TypeId → TypeId → StateT σ Option String
  | 0, _, _ => failure
  | depth + 1, active, id =>
    match g.get? id with
    | none => pure "invalid type"
    | some node =>
      if id ∈ active then pure "<cycle>"
      else writeParts? q (fun t => write? g q depth (node.enter id active) t) (g.parts node)

/-- A depth that suffices in `g`: between two types written out there is no named type twice. -/
def depth (g : TypeGraph) : Nat := (g.size + 1) * (g.size + 1)

/-- The text of `id`, if it has one. -/
def typeText? (g : TypeGraph) (q : Qualifier σ) (id : TypeId) : StateT σ Option String :=
  g.write? q g.depth [] id

/-- The text of a signature without `func`, if it has one. -/
def signatureText? (g : TypeGraph) (q : Qualifier σ) (id : TypeId) : StateT σ Option String :=
  writeParts? q (g.write? q g.depth []) (g.signatureParts id)

/-- The packages whose prefixes the text of `id` needs, in order and with repetitions. -/
def packages (g : TypeGraph) (id : TypeId) : List PackageRef :=
  match g.typeText? .listing id [] with
  | some (_, met) => met
  | none => []

/-- The text of `id` with full package paths, if it has one. -/
def structuralText? (g : TypeGraph) (id : TypeId) : Option String :=
  (g.typeText? .fullPath id ()).map (·.1)

/-- Whether writing `id` comes to an end. The qualifier plays no part in it. -/
def hasText (g : TypeGraph) (id : TypeId) : Bool :=
  (g.structuralText? id).isSome

/-- The text of `id` with full package paths. It stands for a text only where `g.hasText id`. -/
def structuralText (g : TypeGraph) (id : TypeId) : String :=
  (g.structuralText? id).getD ""

/-- The text of the signature `id` with full package paths, if it has one. -/
def structuralSignature? (g : TypeGraph) (id : TypeId) : Option String :=
  (g.signatureText? .fullPath id ()).map (·.1)

end TypeGraph

end Understudy
