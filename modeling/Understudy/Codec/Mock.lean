import Understudy.Codec.Package
import Understudy.Mock
import Understudy.Path.Table

/-!
# Mock descriptions as document values

Decoding and encoding of mock files, and of tables of files by path.
-/

namespace Understudy.Codec

open Document (Value)
open Decoder

/-! ## Decoding -/

def decodeTypeParam : Decoder Mock.TypeParam := fun v => do
  let [name, constraint] ← fields ["name", "constraint"] v | none
  return { name := ← required text name, constraint := ← required text constraint }

def decodeParam : Decoder Mock.Param := fun v => do
  let [name, type, variadic] ← fields ["name", "type", "variadic"] v | none
  return {
    name := ← defaulted "" text name
    type := ← required text type
    variadic := ← defaulted false bool variadic }

def decodeResult : Decoder Mock.Result := fun v => do
  let [name, type] ← fields ["name", "type"] v | none
  return { name := ← defaulted "" text name, type := ← required text type }

def decodeMethod : Decoder Mock.Method := fun v => do
  let [name, params, results, origin, position] ←
    fields ["name", "params", "results", "origin", "position"] v | none
  return {
    name := ← required text name
    params := ← required (list decodeParam) params
    results := ← required (list decodeResult) results
    origin := ← required text origin
    position := ← required decodePosition position }

def decodeInterface : Decoder Mock.Interface := fun v => do
  let [name, typeParams, methods] ← fields ["name", "type_params", "methods"] v | none
  return {
    name := ← required text name
    typeParams := ← decodeList decodeTypeParam typeParams
    methods := ← required (list decodeMethod) methods }

def decodeFile : Decoder Mock.File := fun v => do
  let [package, imports, interfaces] ← fields ["package", "imports", "interfaces"] v | none
  return {
    package := ← required text package
    imports := ← required (list decodeImport) imports
    interfaces := ← required (list decodeInterface) interfaces }

/-! ## Encoding -/

def encodeTypeParam (p : Mock.TypeParam) : Value :=
  .record [("name", .text p.name), ("constraint", .text p.constraint)]

def encodeParam (p : Mock.Param) : Value :=
  .record [("name", .text p.name), ("type", .text p.type), ("variadic", .bool p.variadic)]

def encodeResult (r : Mock.Result) : Value :=
  .record [("name", .text r.name), ("type", .text r.type)]

def encodeMethod (m : Mock.Method) : Value :=
  .record [("name", .text m.name), ("params", encodeList encodeParam m.params),
    ("results", encodeList encodeResult m.results), ("origin", .text m.origin),
    ("position", encodePosition m.position)]

def encodeInterface (i : Mock.Interface) : Value :=
  .record [("name", .text i.name), ("type_params", encodeList encodeTypeParam i.typeParams),
    ("methods", encodeList encodeMethod i.methods)]

def encodeFile (f : Mock.File) : Value :=
  .record [("package", .text f.package), ("imports", encodeList encodeImport f.imports),
    ("interfaces", encodeList encodeInterface f.interfaces)]

/-- The `files` under the text of their paths. -/
def encodeFiles (files : Path.Table Mock.File) : Value :=
  .record (files.map fun (path, file) => (path.text, encodeFile file))

end Understudy.Codec
