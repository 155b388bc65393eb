/-!
# Document values

What a data file holds, whatever its format. Records keep their entries as written, repetitions
included, so that each reader can say what a repetition means.

* `Value.plain`, `Value.sequence` and `Value.mapping` are what a format without declared kinds
  leaves open: a word without quotes, a list that never stands for a record, and a record whose keys
  are values of their own.
* `Value.unfit` is well written and stands for no value: half of a surrogate pair, a number out of
  range, something too deep. It does no harm where nobody looks.
-/

namespace Understudy.Document

/-- The content of a document. -/
inductive Value
  | null
  | bool (b : Bool)
  /-- A natural number below `2 ^ 64`. -/
  | nat (n : Nat)
  /-- A whole number written with a minus sign, from `-2 ^ 63` on. -/
  | int (i : Int)
  /-- Any other number, as it is written in `literal`. -/
  | number (literal : String)
  | text (s : String)
  | list (items : List Value)
  | record (entries : List (String × Value))
  | plain (s : String)
  | sequence (items : List Value)
  | mapping (entries : List (Value × Value))
  | unfit
deriving Repr, Inhabited

namespace Value

mutual

/-- Whether every part of a `Value` stands for one. -/
def isFit : Value → Bool
  | list items => isFitItems items
  | record entries => isFitEntries entries
  | sequence items => isFitItems items
  | mapping entries => isFitPairs entries
  | unfit => false
  | _ => true

def isFitItems : List Value → Bool
  | [] => true
  | v :: vs => v.isFit && isFitItems vs

def isFitEntries : List (String × Value) → Bool
  | [] => true
  | (_, v) :: es => v.isFit && isFitEntries es

def isFitPairs : List (Value × Value) → Bool
  | [] => true
  | (k, v) :: es => k.isFit && v.isFit && isFitPairs es

end

mutual

/-- Of the entries of a `record` with one key only the last stays, at every level. -/
def lastWins : Value → Value
  | list items => list (lastWinsItems items)
  | record entries => record (lastWinsEntries entries)
  | v => v

def lastWinsItems : List Value → List Value
  | [] => []
  | v :: vs => v.lastWins :: lastWinsItems vs

def lastWinsEntries : List (String × Value) → List (String × Value)
  | [] => []
  | (k, v) :: es =>
    let rest := lastWinsEntries es
    if rest.any (·.1 = k) then rest else (k, v.lastWins) :: rest

end

mutual

/-- Lists and records that are inside `levels` others are unfit. -/
def bounded : Value → (levels : Nat) → Value
  | list _, 0 => unfit
  | record _, 0 => unfit
  | sequence _, 0 => unfit
  | mapping _, 0 => unfit
  | list items, n + 1 => list (boundedItems items n)
  | record entries, n + 1 => record (boundedEntries entries n)
  | sequence items, n + 1 => sequence (boundedItems items n)
  | mapping entries, n + 1 => mapping (boundedPairs entries n)
  | v, _ => v

def boundedItems : List Value → Nat → List Value
  | [], _ => []
  | v :: vs, n => v.bounded n :: boundedItems vs n

def boundedEntries : List (String × Value) → Nat → List (String × Value)
  | [], _ => []
  | (k, v) :: es, n => (k, v.bounded n) :: boundedEntries es n

def boundedPairs : List (Value × Value) → Nat → List (Value × Value)
  | [], _ => []
  | (k, v) :: es, n => (k.bounded n, v.bounded n) :: boundedPairs es n

end

end Value

end Understudy.Document
