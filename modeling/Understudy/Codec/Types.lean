import Understudy.Codec.Decoder
import Understudy.Graph

/-!
# Types as document values

Every type is a record that names its kind beside its fields, or a list that starts with the kind.
The fields of a type are set aside until its kind is known, so what the document left open is
decided first, and nothing in them may be unfit. A kind that is not known is decoded as
`TypeNode.other`, whatever else the record holds.
-/

namespace Understudy.Codec

open Document (Value)
open Decoder

/-! ## Names -/

def basicKey : BasicType → String
  | .unsafePointer => "unsafe_pointer"
  | .untypedNil => "untyped_nil"
  | .invalid => "invalid"
  | b => b.name

def basicTypes : List BasicType :=
  [.bool, .int, .int8, .int16, .int32, .int64, .uint, .uint8, .uint16, .uint32, .uint64, .uintptr,
    .float32, .float64, .complex64, .complex128, .string, .unsafePointer, .byte, .rune,
    .untypedNil, .invalid]

def basicOfKey? (s : String) : Option BasicType :=
  basicTypes.find? (basicKey · = s)

def chanKey : ChanDir → String
  | .both => "both"
  | .send => "send"
  | .recv => "recv"

def chanDirs : List ChanDir := [.both, .send, .recv]

def chanOfKey? (s : String) : Option ChanDir :=
  chanDirs.find? (chanKey · = s)

/-- Whether a value, such as `null` or an empty record, stands for no value inside a type. -/
def isNothing : Value → Bool
  | .null => true
  | .record [] => true
  | .mapping [] => true
  | _ => false

/-- A name inside a type for which `value?` has a value, as a text, or as the key of a record with
nothing in it. Where keys are values, its place in `all` will do. -/
def nameInType {α : Type} (all : List α) (value? : String → Option α) : Decoder α
  | .text s => value? s
  | .record [(s, v)] => if isNothing v then value? s else none
  | .mapping [(.text s, v)] => if isNothing v then value? s else none
  | .mapping [(.nat n, v)] => if isNothing v then all[n]? else none
  | _ => none

/-! ## Decoding -/

def decodePosition : Decoder Position := fun v => do
  let [file, line, column] ← fields ["file", "line", "column"] v | none
  return {
    file := ← required uint32 file
    line := ← required uint32 line
    column := ← required uint32 column }

def decodePackageRef : Decoder PackageRef := fun v => do
  let [path, name] ← fields ["path", "name"] v | none
  return { path := ← required text path, name := ← required text name }

def decodeVar : Decoder Var := fun v => do
  let [name, type] ← fields ["name", "ty"] v | none
  return { name := ← defaulted "" text name, type := ← required uint32 type }

def decodeField : Decoder Field := fun v => do
  let [name, type, embedded, tag] ← fields ["name", "ty", "embedded", "tag"] v | none
  return {
    name := ← required text name
    type := ← required uint32 type
    embedded := ← defaulted false bool embedded
    tag := ← defaulted none (optional text) tag }

def decodeMethodSpec : Decoder MethodSpec := fun v => do
  let [name, signature, position] ← fields ["name", "signature", "position"] v | none
  return {
    name := ← required text name
    signature := ← required uint32 signature
    position := ← required decodePosition position }

def decodeTerm : Decoder Term := fun v => do
  let [tilde, type] ← fields ["tilde", "ty"] v | none
  return { tilde := ← defaulted false bool tilde, type := ← required uint32 type }

def decodeTypeParamSpec : Decoder TypeParamSpec := fun v => do
  let [name, constraint] ← fields ["name", "constraint"] v | none
  return { name := ← required text name, constraint := ← required uint32 constraint }

/-- A list of items for `d` that may be left out. -/
def decodeList {α : Type} (d : Decoder α) : Option Value → Option (List α) :=
  defaulted [] (list d)

def decodePackageField : Option Value → Option (Option PackageRef) :=
  defaulted none (optional decodePackageRef)

/-- A type from its `kind` and its fields `body`. -/
def decodeKind (kind : String) (body : Value) : Option TypeNode :=
  match kind with
  | "basic" => do
    let [basic] ← fields ["basic"] body | none
    return .basic (← required (nameInType basicTypes basicOfKey?) basic)
  | "array" => do
    let [len, elem] ← fields ["len", "elem"] body | none
    return .array (← required uint64 len) (← required uint32 elem)
  | "slice" => do
    let [elem] ← fields ["elem"] body | none
    return .slice (← required uint32 elem)
  | "struct" => do
    let [fs] ← fields ["fields"] body | none
    return .struct (← decodeList decodeField fs)
  | "pointer" => do
    let [elem] ← fields ["elem"] body | none
    return .pointer (← required uint32 elem)
  | "tuple" => do
    let [vars] ← fields ["vars"] body | none
    return .tuple (← decodeList decodeVar vars)
  | "signature" => do
    let [params, results, variadic] ← fields ["params", "results", "variadic"] body | none
    return .signature (← decodeList decodeVar params) (← decodeList decodeVar results)
      (← defaulted false bool variadic)
  | "interface" => do
    let [methods, embeddeds, implicit] ← fields ["methods", "embeddeds", "implicit"] body | none
    return .interface (← decodeList decodeMethodSpec methods) (← decodeList uint32 embeddeds)
      (← defaulted false bool implicit)
  | "union" => do
    let [terms] ← fields ["terms"] body | none
    return .union (← required (list decodeTerm) terms)
  | "map" => do
    let [key, elem] ← fields ["key", "elem"] body | none
    return .map (← required uint32 key) (← required uint32 elem)
  | "chan" => do
    let [dir, elem] ← fields ["dir", "elem"] body | none
    return .chan (← defaulted .both (nameInType chanDirs chanOfKey?) dir) (← required uint32 elem)
  | "named" => do
    let [name, package, typeParams, typeArgs, underlying] ←
      fields ["name", "package", "type_params", "type_args", "underlying"] body | none
    return .named (← required text name) (← decodePackageField package)
      (← decodeList decodeTypeParamSpec typeParams) (← decodeList uint32 typeArgs)
      (← required uint32 underlying)
  | "type_param" => do
    let [name, constraint] ← fields ["name", "constraint"] body | none
    return .typeParam (← required text name) (← required uint32 constraint)
  | "alias" => do
    let [name, package, target] ← fields ["name", "package", "target"] body | none
    return .aliasOf (← required text name) (← decodePackageField package) (← required uint32 target)
  | _ =>
    match body with
    | .list (_ :: _) => none
    | _ => some .other

/-- The fields `v` of a type with everything in them decided. -/
def settled (v : Value) : Option Value :=
  let v := v.resolve
  if v.isFit then some v else none

/-- Whether a key that is a value is `kind`. -/
def isKindKey : Value → Bool
  | .text s => s = "kind"
  | .plain s => s = "kind"
  | _ => false

def decodeType : Decoder TypeNode
  | .record es => do
    let kind ← field? es "kind"
    decodeKind (← required text kind) (← settled (.record (es.filter (·.1 ≠ "kind"))))
  | .mapping es => do
    let [(_, kind)] := es.filter (isKindKey ·.1) | none
    decodeKind (← text kind) (← settled (.mapping (es.filter (!isKindKey ·.1))))
  | .list (kind :: rest) => do
    decodeKind (← text kind) (← settled (.list rest))
  | .sequence (kind :: rest) => do
    decodeKind (← text kind) (← settled (.list rest))
  | _ => none

def decodeGraph : Decoder TypeGraph := fun v => do
  return ⟨(← list decodeType v).toArray⟩

/-! ## Encoding -/

def encodeId (id : UInt32) : Value := .nat id.toNat

def encodeOption {α : Type} (f : α → Value) : Option α → Value
  | some a => f a
  | none => .null

def encodePosition (p : Position) : Value :=
  .record [("file", encodeId p.file), ("line", encodeId p.line), ("column", encodeId p.column)]

def encodePackageRef (p : PackageRef) : Value :=
  .record [("path", .text p.path), ("name", .text p.name)]

def encodeVar (v : Var) : Value :=
  .record [("name", .text v.name), ("ty", encodeId v.type)]

def encodeField (f : Field) : Value :=
  .record [("name", .text f.name), ("ty", encodeId f.type), ("embedded", .bool f.embedded),
    ("tag", encodeOption .text f.tag)]

def encodeMethodSpec (m : MethodSpec) : Value :=
  .record [("name", .text m.name), ("signature", encodeId m.signature),
    ("position", encodePosition m.position)]

def encodeTerm (t : Term) : Value :=
  .record [("tilde", .bool t.tilde), ("ty", encodeId t.type)]

def encodeTypeParamSpec (p : TypeParamSpec) : Value :=
  .record [("name", .text p.name), ("constraint", encodeId p.constraint)]

def encodeList {α : Type} (f : α → Value) (items : List α) : Value := .list (items.map f)

/-- The record `es` that names its `kind`. -/
def tagged (kind : String) (es : List (String × Value)) : Value :=
  .record (("kind", .text kind) :: es)

def encodeType : TypeNode → Value
  | .basic b => tagged "basic" [("basic", .text (basicKey b))]
  | .array len elem => tagged "array" [("len", .nat len.toNat), ("elem", encodeId elem)]
  | .slice elem => tagged "slice" [("elem", encodeId elem)]
  | .struct fs => tagged "struct" [("fields", encodeList encodeField fs)]
  | .pointer elem => tagged "pointer" [("elem", encodeId elem)]
  | .tuple vars => tagged "tuple" [("vars", encodeList encodeVar vars)]
  | .signature params results variadic =>
    tagged "signature" [("params", encodeList encodeVar params),
      ("results", encodeList encodeVar results), ("variadic", .bool variadic)]
  | .interface methods embeddeds implicit =>
    tagged "interface" [("methods", encodeList encodeMethodSpec methods),
      ("embeddeds", encodeList encodeId embeddeds), ("implicit", .bool implicit)]
  | .union terms => tagged "union" [("terms", encodeList encodeTerm terms)]
  | .map key elem => tagged "map" [("key", encodeId key), ("elem", encodeId elem)]
  | .chan dir elem => tagged "chan" [("dir", .text (chanKey dir)), ("elem", encodeId elem)]
  | .named name package typeParams typeArgs underlying =>
    tagged "named" [("name", .text name), ("package", encodeOption encodePackageRef package),
      ("type_params", encodeList encodeTypeParamSpec typeParams),
      ("type_args", encodeList encodeId typeArgs), ("underlying", encodeId underlying)]
  | .typeParam name constraint =>
    tagged "type_param" [("name", .text name), ("constraint", encodeId constraint)]
  | .aliasOf name package target =>
    tagged "alias" [("name", .text name), ("package", encodeOption encodePackageRef package),
      ("target", encodeId target)]
  | .other => tagged "unknown" []

def encodeGraph (g : TypeGraph) : Value := encodeList encodeType g.nodes.toList

end Understudy.Codec
