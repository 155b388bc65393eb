import Understudy.Position

/-!
# Type graphs

The types of a package are nodes of one array and refer to each other by number. A named type can
lead back to itself, so the graph may have cycles, and a number may stand for no node at all.

* `TypeNode`: a type whose components are numbers of other types.
* `TypeGraph.get?`, `TypeGraph.add`, `TypeGraph.replace`: the array operations.
-/

namespace Understudy

/-- The number of a type in its `TypeGraph`. -/
abbrev TypeId := UInt32

/-- A package as named types refer to it: the `path` it is imported by and the `name` that it
declares itself. -/
structure PackageRef where
  path : String
  name : String
deriving DecidableEq, Repr, Inhabited

/-- The types that are predeclared. `invalid` stands for a reference that could not be resolved. -/
inductive BasicType
  | bool | int | int8 | int16 | int32 | int64
  | uint | uint8 | uint16 | uint32 | uint64 | uintptr
  | float32 | float64 | complex64 | complex128
  | string | unsafePointer | byte | rune | untypedNil | invalid
deriving DecidableEq, Repr, Inhabited

/-- How a predeclared type is written in source text, such as `int`. -/
def BasicType.name : BasicType → String
  | bool => "bool"
  | int => "int"
  | int8 => "int8"
  | int16 => "int16"
  | int32 => "int32"
  | int64 => "int64"
  | uint => "uint"
  | uint8 => "uint8"
  | uint16 => "uint16"
  | uint32 => "uint32"
  | uint64 => "uint64"
  | uintptr => "uintptr"
  | float32 => "float32"
  | float64 => "float64"
  | complex64 => "complex64"
  | complex128 => "complex128"
  | string => "string"
  | unsafePointer => "unsafe.Pointer"
  | byte => "byte"
  | rune => "rune"
  | untypedNil => "untyped nil"
  | invalid => "invalid type"

/-- The direction of a channel, `both` where it is not restricted. -/
inductive ChanDir
  | both
  | send
  | recv
deriving DecidableEq, Repr, Inhabited

/-- A slot of a tuple or signature. Its `name` is empty if it has none. -/
structure Var where
  name : String
  type : TypeId
deriving DecidableEq, Repr, Inhabited

/-- A field `name` of a struct. -/
structure Field where
  name : String
  type : TypeId
  embedded : Bool
  tag : Option String
deriving DecidableEq, Repr, Inhabited

/-- A method `name` that an interface declares itself. -/
structure MethodSpec where
  name : String
  signature : TypeId
  position : Position
deriving DecidableEq, Repr, Inhabited

/-- A term `type` of a union of types, behind a `~` if `tilde` is set. -/
structure Term where
  tilde : Bool
  type : TypeId
deriving DecidableEq, Repr, Inhabited

/-- A type parameter `name` that a named type declares. -/
structure TypeParamSpec where
  name : String
  constraint : TypeId
deriving DecidableEq, Repr, Inhabited

/-- A type whose components are given by number. `other` is a type of a kind not modelled here. -/
inductive TypeNode
  | basic (type : BasicType)
  | array (len : UInt64) (elem : TypeId)
  | slice (elem : TypeId)
  | struct (fields : List Field)
  | pointer (elem : TypeId)
  | tuple (vars : List Var)
  | signature (params results : List Var) (variadic : Bool)
  | interface (methods : List MethodSpec) (embeddeds : List TypeId) (implicit : Bool)
  | union (terms : List Term)
  | map (key elem : TypeId)
  | chan (dir : ChanDir) (elem : TypeId)
  | named (name : String) (package : Option PackageRef) (typeParams : List TypeParamSpec)
      (typeArgs : List TypeId) (underlying : TypeId)
  | typeParam (name : String) (constraint : TypeId)
  | aliasOf (name : String) (package : Option PackageRef) (target : TypeId)
  | other
deriving DecidableEq, Repr, Inhabited

namespace TypeNode

def isInterface : TypeNode → Bool
  | interface .. => true
  | _ => false

/-- The type that a name stands for: the `underlying` type of a named type, the `target` of an
alias. -/
def aliased? : TypeNode → Option TypeId
  | named _ _ _ _ underlying => some underlying
  | aliasOf _ _ target => some target
  | _ => none

/-- All types that a `TypeNode` is made of. -/
def references : TypeNode → List TypeId
  | basic _ => []
  | array _ elem => [elem]
  | slice elem => [elem]
  | struct fields => fields.map (·.type)
  | pointer elem => [elem]
  | tuple vars => vars.map (·.type)
  | signature params results _ => params.map (·.type) ++ results.map (·.type)
  | interface methods embeddeds _ => methods.map (·.signature) ++ embeddeds
  | union terms => terms.map (·.type)
  | map key elem => [key, elem]
  | chan _ elem => [elem]
  | named _ _ typeParams typeArgs underlying =>
    typeParams.map (·.constraint) ++ typeArgs ++ [underlying]
  | typeParam _ constraint => [constraint]
  | aliasOf _ _ target => [target]
  | other => []

end TypeNode

/-- The types of a package. The number of a type is its place in `nodes`. -/
structure TypeGraph where
  nodes : Array TypeNode
deriving DecidableEq, Repr, Inhabited

namespace TypeGraph

def empty : TypeGraph := ⟨#[]⟩

/-- The number of types in `g`. -/
def size (g : TypeGraph) : Nat := g.nodes.size

/-- The node with the number `id`, unless that is out of range. -/
def get? (g : TypeGraph) (id : TypeId) : Option TypeNode := g.nodes[id.toNat]?

/-- Whether `id` stands for a node. -/
def contains (g : TypeGraph) (id : TypeId) : Bool := id.toNat < g.size

/-- All numbers that stand for a node of `g`. -/
def ids (g : TypeGraph) : List TypeId := (List.range g.size).map UInt32.ofNat

/-- Adds `node` behind the others, and gives its number. -/
def add (g : TypeGraph) (node : TypeNode) : TypeGraph × TypeId :=
  (⟨g.nodes.push node⟩, UInt32.ofNat g.size)

/-- Puts `node` in the place of that with the number `id`, which is given back. A number out of
range changes nothing. -/
def replace (g : TypeGraph) (id : TypeId) (node : TypeNode) : TypeGraph × Option TypeNode :=
  (⟨g.nodes.setIfInBounds id.toNat node⟩, g.get? id)

/-- Follows names for at most `n` nodes. -/
def follow (g : TypeGraph) : Nat → TypeId → Option TypeId
  | 0, _ => none
  | n + 1, id =>
    match g.get? id with
    | none => none
    | some node =>
      match node.aliased? with
      | some next => follow g n next
      | none => some id

/-- The first type without a name on the way from `id` through named types and aliases. There is
none if the way leaves the graph or goes round in a circle; one step more than there are nodes tells
the latter. -/
def underlying? (g : TypeGraph) (id : TypeId) : Option TypeId :=
  g.follow (g.size + 1) id

/-- Whether `id` stands for an interface. -/
def isInterface (g : TypeGraph) (id : TypeId) : Bool :=
  (g.get? id).any TypeNode.isInterface

/-- The interface that `id` stands for, through named types and aliases. -/
def interface? (g : TypeGraph) (id : TypeId) : Option TypeId :=
  (g.underlying? id).filter g.isInterface

end TypeGraph

end Understudy
