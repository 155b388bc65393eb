import Understudy.Document.Word

/-!
# Decoding values

How a value of a document becomes data. A record is written with its keys or as the list of its
fields in order; unknown keys are passed over, a known one may not repeat, and the fields at the end
of a list may be left out if they have a default. Where keys are values, a number stands for the
field in its place. A word without quotes is taken for what is asked for, and no word at all for an
empty list or record.
-/

namespace Understudy.Codec

open Document

/-- Makes an `α` of a value, or refuses it. -/
abbrev Decoder (α : Type) := Value → Option α

namespace Decoder

variable {α : Type}

def text : Decoder String
  | .text s => some s
  | .plain s => some s
  | _ => none

def bool : Decoder Bool
  | .bool b => some b
  | .plain s => Word.bool? s
  | _ => none

def nat : Decoder Nat
  | .nat n => some n
  | .int i => if i < 0 then none else some i.toNat
  | .plain s => Word.nat? s
  | _ => none

/-- A `UInt32`, refused if the number has more than 32 bits. -/
def uint32 : Decoder UInt32 := fun v => do
  let n ← nat v
  if n < UInt32.size then some (UInt32.ofNat n) else none

/-- A `UInt64`, refused if the number has more than 64 bits. -/
def uint64 : Decoder UInt64 := fun v => do
  let n ← nat v
  if n < UInt64.size then some (UInt64.ofNat n) else none

/-- A value for `d` that may be unset. -/
def optional (d : Decoder α) : Decoder (Option α)
  | .null => some none
  | .plain s => if s = "" || Word.isNull s then some none else some <$> d (.plain s)
  | v => some <$> d v

def list (d : Decoder α) : Decoder (List α)
  | .list items => items.mapM d
  | .sequence items => items.mapM d
  | .plain "" => some []
  | _ => none

/-- The entries of a record whose keys are data, with values for `d`. -/
def entries (d : Decoder α) : Decoder (List (String × α))
  | .record es => es.mapM fun (k, v) => (d v).map (k, ·)
  | .mapping es => es.mapM fun (k, v) => do return (← text k, ← d v)
  | .plain "" => some []
  | _ => none

/-- A name for which `value?` has a value, as a text or as the key of a record with nothing in
it. -/
def name (value? : String → Option α) : Decoder α
  | .text s => value? s
  | .plain s => value? s
  | .record [(s, .null)] => value? s
  | _ => none

/-! ## Records -/

/-- The value of `key` among `es`, which may be there once. -/
def field? (es : List (String × Value)) (key : String) : Option (Option Value) :=
  match es.filter (·.1 = key) with
  | [] => some none
  | [e] => some (some e.2)
  | _ => none

/-- The one of `keys` that a value stands for, by its name or by its place. -/
def fieldName? (keys : List String) : Value → Option (Option String)
  | .text s => some (some s)
  | .plain s => some (some s)
  | .nat n => some keys[n]?
  | _ => none

/-- The entries of a record whose keys are values, those that have a name by `fieldName?`. -/
def namedEntries? (keys : List String) : List (Value × Value) → Option (List (String × Value))
  | [] => some []
  | (k, v) :: es => do
    match ← fieldName? keys k with
    | none => namedEntries? keys es
    | some name => return (name, v) :: (← namedEntries? keys es)

/-- The values of the fields `keys` of a record, those that are there. -/
def fields (keys : List String) : Decoder (List (Option Value))
  | .record es => keys.mapM (field? es)
  | .mapping es => do keys.mapM (field? (← namedEntries? keys es))
  | .list items =>
    if items.length ≤ keys.length then
      some (items.map some ++ List.replicate (keys.length - items.length) none)
    else none
  | .plain "" => some (keys.map fun _ => none)
  | _ => none

/-- A field for `d` that has to be there. -/
def required (d : Decoder α) (field : Option Value) : Option α := field.bind d

/-- A field for `d` that stands for `default` if it is not there. -/
def defaulted (default : α) (d : Decoder α) : Option Value → Option α
  | none => some default
  | some v => d v

end Decoder

end Understudy.Codec
