import Understudy.Document.Value

/-!
# Writing JSON

On one line, or with one item on a line and two blanks for each level. Characters are written as
they are, except for quotes, backslashes and controls.
-/

namespace Understudy.Document.Json

/-- The hexadecimal digits of `n`, four in all. -/
def hex4 (n : Nat) : List Char :=
  let ds := Nat.toDigits 16 n
  List.replicate (4 - ds.length) '0' ++ ds

/-- How `c` is written between quotes. -/
def escape (c : Char) : List Char :=
  if c = '"' then ['\\', '"']
  else if c = '\\' then ['\\', '\\']
  else if c = '\x08' then ['\\', 'b']
  else if c = '\x0c' then ['\\', 'f']
  else if c = '\n' then ['\\', 'n']
  else if c = '\r' then ['\\', 'r']
  else if c = '\t' then ['\\', 't']
  else if c.toNat < 0x20 then '\\' :: 'u' :: hex4 c.toNat
  else [c]

def writeText (s : String) : String :=
  String.ofList ('"' :: (s.toList.flatMap escape ++ ['"']))

/-- Where `writeItems` puts the items of a list or record: line breaks and blanks, or nothing. -/
structure Layout where
  /-- What stands before an item or a closing bracket at a level. -/
  lineBreak : Nat → String
  /-- What stands between a key and its value. -/
  colon : String

/-- Everything on one line. -/
def Layout.compact : Layout := ⟨fun _ => "", ":"⟩

/-- An item on a line. -/
def Layout.indented : Layout :=
  ⟨fun level => "\n" ++ String.ofList (List.replicate (2 * level) ' '), ": "⟩

/-- The `items` in brackets of a kind, at `level`. -/
def writeItems (l : Layout) (level : Nat) (opening closing : String) (items : List String) :
    String :=
  if items.isEmpty then opening ++ closing
  else
    opening ++ l.lineBreak (level + 1) ++ ("," ++ l.lineBreak (level + 1)).intercalate items ++
      l.lineBreak level ++ closing

mutual

/-- Writes a value at `level`, laid out by `l`. -/
def writeAt (l : Layout) (level : Nat) : Value → String
  | .null => "null"
  | .bool b => if b then "true" else "false"
  | .nat n => toString n
  | .int i => toString i
  | .number literal => literal
  | .text s => writeText s
  | .plain s => writeText s
  | .list items => writeItems l level "[" "]" (writeList l (level + 1) items)
  | .record entries => writeItems l level "\x7b" "\x7d" (writeEntries l (level + 1) entries)
  | .sequence items => writeItems l level "[" "]" (writeList l (level + 1) items)
  | .mapping entries => writeItems l level "[" "]" (writePairs l (level + 1) entries)
  | .unfit => "null"

def writeList (l : Layout) (level : Nat) : List Value → List String
  | [] => []
  | v :: vs => writeAt l level v :: writeList l level vs

def writeEntries (l : Layout) (level : Nat) : List (String × Value) → List String
  | [] => []
  | (k, v) :: es => (writeText k ++ l.colon ++ writeAt l level v) :: writeEntries l level es

/-- Entries whose keys are values are written as pairs, laid out by `l`. -/
def writePairs (l : Layout) (level : Nat) : List (Value × Value) → List String
  | [] => []
  | (k, v) :: es =>
    writeItems l level "[" "]" [writeAt l (level + 1) k, writeAt l (level + 1) v] ::
      writePairs l level es

end

/-- Writes `v` on one line. -/
def compact (v : Value) : String := writeAt .compact 0 v

/-- Writes `v` with an item on a line. -/
def pretty (v : Value) : String := writeAt .indented 0 v

end Understudy.Document.Json
