import Understudy.Document.Value

/-!
# Tables in TOML

A table is filled from several places, and what may be added where depends on how it came to be: by
a header of its own, on the way to another header, or by a dotted key. Lists of tables grow at their
end. A value, once written, is closed.

* `Table.assign`: a key with a value, below dotted keys.
* `Table.openTable`, `Table.openItem`: what the two kinds of headers do.
-/

namespace Understudy.Document.Toml

/-- What a key stands for while a document is read. `tables` are those of a list, in order. -/
inductive Item
  | value (v : Value)
  /-- A table, `implicit` if it was made on the way to another one and `dotted` if by a dotted
  key. -/
  | table (implicit dotted : Bool) (entries : List (String × Item))
  | tables (items : List (List (String × Item)))
deriving Inhabited

/-- A table while a document is read, marked `implicit` and `dotted` as an `Item`. -/
structure Table where
  implicit : Bool := false
  dotted : Bool := false
  entries : List (String × Item) := []
deriving Inhabited

mutual

def Item.toValue : Item → Value
  | .value v => v
  | .table _ _ entries => .record (entriesToValues entries)
  | .tables items => .list (tablesToValues items)

def entriesToValues : List (String × Item) → List (String × Value)
  | [] => []
  | (k, i) :: es => (k, i.toValue) :: entriesToValues es

def tablesToValues : List (List (String × Item)) → List Value
  | [] => []
  | es :: rest => .record (entriesToValues es) :: tablesToValues rest

end

namespace Table

def toItem (t : Table) : Item := .table t.implicit t.dotted t.entries

def toValue (t : Table) : Value := t.toItem.toValue

def find? (t : Table) (key : String) : Option Item :=
  (t.entries.find? (·.1 = key)).map (·.2)

/-- Sets the item of `key`, in its place or at the end. -/
def set (t : Table) (key : String) (item : Item) : Table :=
  { t with
    entries :=
      if t.entries.any (·.1 = key) then
        t.entries.map fun e => if e.1 = key then (key, item) else e
      else t.entries ++ [(key, item)] }

/-- Changes the last of some tables by `f`. -/
def changeLast (f : Table → Option Table) :
    List (List (String × Item)) → Option (List (List (String × Item)))
  | [] => none
  | [es] => do return [(← f { entries := es }).entries]
  | es :: rest => do return es :: (← changeLast f rest)

/-- Changes the table at the end of a path by `f`. Tables that are missing on the way are made, a
list of tables stands for its last one, and a dotted key, with `byKey`, does not reach into a table
with a header. -/
def changeAt (byKey : Bool) (f : Table → Option Table) : List String → Table → Option Table
  | [], t => f t
  | key :: path, t => do
    match t.find? key with
    | none =>
      let child ← changeAt byKey f path { implicit := true, dotted := byKey }
      return t.set key child.toItem
    | some (.table implicit dotted entries) =>
      if byKey && !implicit then none
      let child ← changeAt byKey f path { implicit, dotted, entries }
      return t.set key child.toItem
    | some (.tables items) =>
      return t.set key (.tables (← changeLast (changeAt byKey f path) items))
    | some (.value _) => none

/-- Gives `key` the value `v`. Behind the dotted keys `path` the table has to be one made by dotted
keys. -/
def assign (path : List String) (key : String) (v : Value) : Table → Option Table :=
  changeAt true (fun t =>
    if (path.isEmpty && t.dotted) || (!path.isEmpty && !t.dotted) || (t.find? key).isSome then none
    else some (t.set key (.value v))) path

/-- Opens the table `key` at `path` by its header. It may have been made on the way to another
header before. -/
def openTable (path : List String) (key : String) : Table → Option Table :=
  changeAt false (fun t =>
    match t.find? key with
    | none => some (t.set key (.table false false []))
    | some (.table true false entries) => some (t.set key (.table false false entries))
    | some _ => none) path

/-- Opens a new table of the list `key` at `path` by its header. -/
def openItem (path : List String) (key : String) : Table → Option Table :=
  changeAt false (fun t =>
    match t.find? key with
    | none => some (t.set key (.tables [[]]))
    | some (.tables items) => some (t.set key (.tables (items ++ [[]])))
    | some _ => none) path

end Table

end Understudy.Document.Toml
