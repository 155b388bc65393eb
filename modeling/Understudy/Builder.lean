import Understudy.Package

/-!
# Building packages

Packages put together step by step, as a loader would leave them: files, declarations and objects,
and the types they refer to. A type can be reserved first and filled later, which closes cycles.
-/

namespace Understudy

/-- A package in the making. Its files are numbered from `fileBase` on. -/
structure Builder where
  package : Package
  fileBase : UInt32
deriving Repr, Inhabited

namespace Builder

/-- A step refers to something the `Builder` did not make. -/
inductive Error
  | unknownFile
deriving DecidableEq, Repr

def Error.message : Error → String
  | unknownFile => "file was not created by this builder"

/-- The package `name` at `path` with nothing in it. Its files are numbered from `fileBase`. -/
def new (path name : String) (fileBase : UInt32) : Builder where
  package := {
    name, path, files := [], objects := #[], scope := .empty, types := .empty, diagnostics := [] }
  fileBase := fileBase

end Builder

/-- A step of building, which changes a `Builder`. -/
abbrev Build := StateT Builder (Except Builder.Error)

namespace Build

/-- Runs all `steps` and gives the package `name` at `path`. -/
def package (path name : String) (steps : Build Unit) : Except Builder.Error Package := do
  let (_, b) ← steps.run (.new path name 0)
  return b.package

/-- Changes the package by `f`. -/
def change (f : Package → Package) : Build Unit :=
  modify fun b => { b with package := f b.package }

def ref : Build PackageRef := do
  return (← get).package.ref

/-! ## Files and declarations -/

/-- A new file at `path` without imports and declarations. -/
def file (path : String) : Build FileId := do
  let b ← get
  let id := b.fileBase + UInt32.ofNat b.package.files.length
  change fun p => { p with
    files := p.files ++ [{ id, path := ⟨path⟩, imports := [], decls := [] }] }
  return id

/-- Changes the first file with the number `id` by `f`. -/
def updateFile (f : SourceFile → SourceFile) (id : FileId) : List SourceFile → List SourceFile
  | [] => []
  | file :: rest => if file.id = id then f file :: rest else file :: updateFile f id rest

/-- Changes the file `id`, which the builder made, by `f`. -/
def changeFile (id : FileId) (f : SourceFile → SourceFile) : Build Unit := do
  if ((← get).package.file? id).isNone then throw .unknownFile
  change fun p => { p with files := updateFile f id p.files }

def import_ (file : FileId) (i : Import) : Build Unit :=
  changeFile file fun f => { f with imports := f.imports ++ [i] }

def decl (file : FileId) (d : Decl) : Build Unit :=
  changeFile file fun f => { f with decls := f.decls ++ [d] }

/-- The object `name` in the scope of the package, without a declaration. -/
def object (name : String) (kind : ObjectKind) (type : TypeId) (position : Position) :
    Build ObjectId := do
  let id := UInt32.ofNat (← get).package.objects.size
  change fun p => { p with
    objects := p.objects.push { name, kind, type, position }
    scope := p.scope.insert name id }
  return id

/-- The object `name` with its declaration on `line` of `file`, behind the comment lines `doc`. -/
def declare (file : FileId) (name : String) (kind : ObjectKind) (type : TypeId)
    (doc : List String) (line : UInt32) : Build ObjectId := do
  let id ← object name kind type { file, line, column := 6 }
  decl file { doc, specs := [{ name, object := some id }] }
  return id

def diagnostic (location message : String) : Build Unit :=
  change fun p => { p with
    diagnostics := p.diagnostics ++ [{ location := some location, message }] }

/-! ## Types -/

def type (node : TypeNode) : Build TypeId := do
  let (types, id) := (← get).package.types.add node
  change fun p => { p with types }
  return id

/-- A type to be filled later by `fill`. -/
def reserve : Build TypeId := type .other

/-- Puts `node` in the place of the type `id`. -/
def fill (id : TypeId) (node : TypeNode) : Build Unit :=
  change fun p => { p with types := (p.types.replace id node).1 }

def basic (b : BasicType) : Build TypeId := type (.basic b)

def slice (elem : TypeId) : Build TypeId := type (.slice elem)

def pointer (elem : TypeId) : Build TypeId := type (.pointer elem)

def map (key elem : TypeId) : Build TypeId := type (.map key elem)

/-- A struct with `fields` that have neither tag nor embedding. -/
def struct (fields : List (String × TypeId)) : Build TypeId :=
  type (.struct (fields.map fun (name, type) => { name, type, embedded := false, tag := none }))

def union (types : List TypeId) : Build TypeId :=
  type (.union (types.map fun type => { tilde := false, type }))

def named (package : Option PackageRef) (name : String) (underlying : TypeId) : Build TypeId :=
  type (.named name package [] [] underlying)

/-- The type `name` of another package, whose name is the last segment of its `path`. -/
def foreign (path name : String) (underlying : TypeId) : Build TypeId :=
  named (some ⟨path, Name.lastSegment path⟩) name underlying

def typeParam (name : String) (constraint : TypeId) : Build TypeId :=
  type (.typeParam name constraint)

def signature (params results : List Var) (variadic : Bool) : Build TypeId :=
  type (.signature params results variadic)

def interface (methods : List MethodSpec) (embeddeds : List TypeId) : Build TypeId :=
  type (.interface methods embeddeds false)

/-- The predeclared interface `error`. -/
def error : Build TypeId := do
  let string ← basic .string
  let sig ← signature [] [⟨"", string⟩] false
  let iface ← interface [{ name := "Error", signature := sig, position := ⟨0, 0, 0⟩ }] []
  named none "error" iface

/-- The predeclared alias `any`. -/
def any : Build TypeId := do
  type (.aliasOf "any" none (← interface [] []))

/-- The method `name` declared on `line` of `file`. -/
def method (file : FileId) (line : UInt32) (name : String) (signature : TypeId) : MethodSpec :=
  { name, signature, position := { file, line, column := 2 } }

/-- Gives the named type `id` its type parameters `params`. -/
def setTypeParams (id : TypeId) (params : List (String × TypeId)) : Build Unit := do
  match (← get).package.types.get? id with
  | some (.named name package _ typeArgs underlying) =>
    fill id (.named name package (params.map fun (name, constraint) => { name, constraint })
      typeArgs underlying)
  | _ => return ()

/-- The named type `name` of this package with its declaration on `line` of `file`. -/
def declareType (file : FileId) (name : String) (underlying : TypeId) (doc : List String)
    (line : UInt32) : Build (ObjectId × TypeId) := do
  let id ← named (some (← ref)) name underlying
  return (← declare file name .typeName id doc line, id)

/-- Fills the type `reserved` with the named type `name` of this package and declares it, for an
interface whose methods refer to it. -/
def declareReserved (file : FileId) (reserved : TypeId) (name : String) (underlying : TypeId)
    (doc : List String) (line : UInt32) : Build ObjectId := do
  fill reserved (.named name (some (← ref)) [] [] underlying)
  declare file name .typeName reserved doc line

end Build

end Understudy
