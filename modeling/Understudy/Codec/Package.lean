import Understudy.Codec.Types
import Understudy.Package

/-!
# Packages as document values

Decoding and encoding of packages and of what they hold. An import is encoded without its alias if
it has none; every other field is always written.
-/

namespace Understudy.Codec

open Document (Value)
open Decoder

/-! ## Decoding -/

def objectKey : ObjectKind → String
  | .typeName => "type_name"
  | .var => "var"
  | .const => "const"
  | .func => "func"

def objectOfKey? (s : String) : Option ObjectKind :=
  [ObjectKind.typeName, .var, .const, .func].find? (objectKey · = s)

def decodeImport : Decoder Import := fun v => do
  let [path, name] ← fields ["path", "name"] v | none
  return { path := ← required text path, name := ← defaulted none (optional text) name }

def decodeObject : Decoder Object := fun v => do
  let [name, kind, type, position] ← fields ["name", "kind", "ty", "position"] v | none
  return {
    name := ← required text name
    kind := ← required (Decoder.name objectOfKey?) kind
    type := ← required uint32 type
    position := ← required decodePosition position }

def decodeTypeSpec : Decoder TypeSpec := fun v => do
  let [name, object] ← fields ["name", "object"] v | none
  return {
    name := ← required text name
    object := ← defaulted none (optional uint32) object }

def decodeDecl : Decoder Decl := fun v => do
  let [doc, specs] ← fields ["doc", "specs"] v | none
  return { doc := ← decodeList text doc, specs := ← decodeList decodeTypeSpec specs }

def decodeSourceFile : Decoder SourceFile := fun v => do
  let [id, path, imports, decls] ← fields ["id", "path", "imports", "decls"] v | none
  return {
    id := ← required uint32 id
    path := ⟨← required text path⟩
    imports := ← decodeList decodeImport imports
    decls := ← decodeList decodeDecl decls }

def decodeDiagnostic : Decoder Diagnostic := fun v => do
  let [location, message] ← fields ["location", "message"] v | none
  return {
    location := ← defaulted none (optional text) location
    message := ← required text message }

def decodeScope : Decoder Scope := fun v => do
  return Scope.ofList (← entries uint32 v)

def decodePackage : Decoder Package := fun v => do
  let [name, path, files, objects, scope, types, diagnostics] ←
    fields ["name", "path", "files", "objects", "scope", "types", "diagnostics"] v | none
  return {
    name := ← required text name
    path := ← required text path
    files := ← decodeList decodeSourceFile files
    objects := (← decodeList decodeObject objects).toArray
    scope := ← defaulted Scope.empty decodeScope scope
    types := ← defaulted TypeGraph.empty decodeGraph types
    diagnostics := ← decodeList decodeDiagnostic diagnostics }

def decodePackages : Decoder (List Package) := list decodePackage

/-! ## Encoding -/

def encodeImport (i : Import) : Value :=
  .record (("path", .text i.path) ::
    match i.name with
    | some name => [("name", .text name)]
    | none => [])

def encodeObject (o : Object) : Value :=
  .record [("name", .text o.name), ("kind", .text (objectKey o.kind)),
    ("ty", encodeId o.type), ("position", encodePosition o.position)]

def encodeTypeSpec (s : TypeSpec) : Value :=
  .record [("name", .text s.name), ("object", encodeOption encodeId s.object)]

def encodeDecl (d : Decl) : Value :=
  .record [("doc", encodeList .text d.doc), ("specs", encodeList encodeTypeSpec d.specs)]

def encodeSourceFile (f : SourceFile) : Value :=
  .record [("id", encodeId f.id), ("path", .text f.path.text),
    ("imports", encodeList encodeImport f.imports), ("decls", encodeList encodeDecl f.decls)]

def encodeDiagnostic (d : Diagnostic) : Value :=
  .record [("location", encodeOption .text d.location), ("message", .text d.message)]

def encodeScope (s : Scope) : Value :=
  .record (s.entries.map fun (name, id) => (name, encodeId id))

def encodePackage (p : Package) : Value :=
  .record [("name", .text p.name), ("path", .text p.path),
    ("files", encodeList encodeSourceFile p.files),
    ("objects", encodeList encodeObject p.objects.toList), ("scope", encodeScope p.scope),
    ("types", encodeGraph p.types), ("diagnostics", encodeList encodeDiagnostic p.diagnostics)]

def encodePackages (ps : List Package) : Value := encodeList encodePackage ps

end Understudy.Codec
