import Understudy.Extract.Error
import Understudy.Graph.Embedding
import Understudy.Graph.Validity
import Understudy.Mock

/-!
# From a declared type to a mock's interface

The methods of the interface and of all it embeds, each signature once, in the order of their
declarations. Types are written through a qualifier, whose record is kept also when the extraction
fails. An extraction that comes to a type without a text ends there, as `ExtractError.endless`.
-/

namespace Understudy

/-- A step that may fail with an `ExtractError`, and that carries the state of a qualifier along. -/
abbrev Extraction (σ : Type) := ExceptT ExtractError (StateM σ)

namespace Extract

variable {σ : Type}

/-- The text of `id`. Where it has none, the outcome is `ExtractError.endless`. -/
def typeText (g : TypeGraph) (q : Qualifier σ) (id : TypeId) : Extraction σ String :=
  ExceptT.mk fun s =>
    match g.typeText? q id s with
    | some (text, s) => (.ok text, s)
    | none => (.error .endless, s)

/-- Marks the last parameter as `variadic`, the one that takes the remaining arguments. -/
def markVariadic : Mock.Params → Mock.Params
  | [] => []
  | [p] => [{ p with variadic := true }]
  | p :: ps => p :: markVariadic ps

/-- The description of a method that the interface with text `origin` declares. -/
def method (g : TypeGraph) (q : Qualifier σ) (origin : String) (spec : MethodSpec) :
    Extraction σ Mock.Method :=
  match g.get? spec.signature with
  | some (.signature params results variadic) => do
    let params ← params.mapM fun v => return { name := v.name, type := ← typeText g q v.type }
    let results ← results.mapM fun v => return { name := v.name, type := ← typeText g q v.type }
    return {
      name := spec.name
      params := if variadic then markVariadic params else params
      results
      origin
      position := spec.position }
  | _ => throw (.notASignature spec.name)

/-- The methods that the interface `id` declares itself. -/
def declaredMethods (g : TypeGraph) (id : TypeId) : List MethodSpec :=
  match g.get? id with
  | some (.interface methods _ _) => methods
  | _ => []

/-- The methods of the interface `id` and of all it embeds, each with the text of the interface that
declares it. -/
def allMethods (g : TypeGraph) (id : TypeId) : List (String × MethodSpec) :=
  (g.explode id).flatMap fun member =>
    (declaredMethods g member).map fun spec => (g.structuralText member, spec)

/-- The type parameters that the named type `id` declares. -/
def declaredTypeParams (g : TypeGraph) (id : TypeId) : List TypeParamSpec :=
  match g.get? id with
  | some (.named _ _ typeParams _ _) => typeParams
  | _ => []

/-- The interface that `object` declares, with types written through `q`. -/
def interface (package : Package) (object : Object) (q : Qualifier σ) :
    Extraction σ Mock.Interface := do
  let g := package.types
  if object.kind ≠ .typeName then throw (.notAType object.name)
  let some id := g.interface? object.type | throw (.notAnInterface object.name)
  if !g.valid object.type then throw (.invalidType object.name package.diagnostics)
  let typeParams ← (declaredTypeParams g object.type).mapM fun p =>
    return { name := p.name, constraint := ← typeText g q p.constraint }
  if (g.explode? id).isNone then throw .endless
  let methods ← (allMethods g id).mapM fun (origin, spec) => method g q origin spec
  return {
    name := object.name
    typeParams
    methods := (Mock.Method.distinct methods).mergeSort fun m n => m.position.le n.position }

end Extract

end Understudy
