import Understudy.Command.Files

/-!
# Files in memory

A tree of directories and files, listed by location. Every path is resolved step by step from a
working directory, and each step but the last has to end in a directory.

* `Storage.locate?`: the location that a path leads to.
* `Storage.makeDirectories?`, `Storage.write?`: the tree after a change, if it can be made.
* `Storage.changes`: the files in which two trees differ.
* `Storage.files`: the tree as access to files.
-/

namespace Understudy.Command

/-- A place in the tree: names from the root on. -/
abbrev Location := List String

/-- What stands at a `Location`. -/
inductive Content
  | directory
  | file (text : String)
deriving DecidableEq, Repr

/-- What stands where. The root is a directory without being listed in `entries`. -/
structure Storage where
  entries : List (Location × Content) := []
deriving DecidableEq, Repr, Inhabited

namespace Storage

/-- What stands at `l`, if anything does. -/
def find? (s : Storage) (l : Location) : Option Content :=
  if l = [] then some .directory else s.entries.lookup l

/-- Puts `c` in the place `l`. -/
def put (s : Storage) (l : Location) (c : Content) : Storage :=
  ⟨(l, c) :: s.entries.filter (·.1 ≠ l)⟩

/-- Whether a directory can hold `name`: it has at most 255 bytes and no zero character. -/
def isUsable (name : String) : Bool :=
  name.utf8ByteSize ≤ 255 && name.toList.all (·.toNat ≠ 0)

/-- One step `c` from the directory `l`. The place it leads to may be empty. -/
def step? (s : Storage) (l : Location) (c : Path.Component) : Option Location :=
  if s.find? l ≠ some .directory then none
  else
    match c with
    | .root => some []
    | .here => some l
    | .up => some l.dropLast
    | .name n => some (l ++ [n])

/-- Tells whether `p` is written as the path of a directory. -/
def asksDirectory (p : Path) : Bool :=
  match p.text.toList.reverse with
  | '/' :: _ => true
  | '.' :: '/' :: _ => true
  | _ => false

/-- Whether `p` is not too long to be looked up. -/
def isShort (p : Path) : Bool := p.text.utf8ByteSize < 4096

/-- The location that `p` leads to from the working directory `here`. -/
def locate? (s : Storage) (here : Location) (p : Path) : Option Location :=
  if p.text = "" || !isShort p then none else p.components.foldlM s.step? here

/-- The text of the file that `p` leads to. -/
def read? (s : Storage) (here : Location) (p : Path) : Option String :=
  if asksDirectory p then none
  else
    match (s.locate? here p).bind s.find? with
    | some (.file text) => some text
    | _ => none

/-- One step `c` from a directory, into a new one if nothing is there. -/
def descend? (at_ : Storage × Location) (c : Path.Component) : Option (Storage × Location) := do
  let (s, l) := at_
  let l ← s.step? l c
  match s.find? l with
  | some .directory => return (s, l)
  | some (.file _) => none
  | none => if l.getLast?.all isUsable then return (s.put l .directory, l) else none

/-- Makes all the directories on the path `p`. -/
def makeDirectories? (s : Storage) (here : Location) (p : Path) : Option Storage :=
  if isShort p then (p.components.foldlM descend? (s, here)).map Prod.fst else none

/-- Writes `text` to the file that `p` leads to. -/
def write? (s : Storage) (here : Location) (p : Path) (text : String) : Option Storage := do
  if asksDirectory p then none
  let l ← s.locate? here p
  match s.find? l with
  | some .directory => none
  | some (.file _) => return s.put l (.file text)
  | none => if l.getLast?.all isUsable then return s.put l (.file text) else none

/-- The files of `t` that `s` does not hold, or holds with another text. -/
def changes (s t : Storage) : List (Location × String) :=
  t.entries.filterMap fun (l, c) =>
    match c with
    | .file text => if s.find? l = some c then none else some (l, text)
    | .directory => none

/-- Makes a `change` if it can be made, and tells whether it was. -/
def attempt (change : Storage → Option Storage) : StateM Storage Bool := fun s =>
  match change s with
  | some t => (true, t)
  | none => (false, s)

/-- Access to the files of a `Storage` from the working directory `here`. -/
def files (here : Location) : Files (StateM Storage) where
  read p := fun s => (s.read? here p, s)
  makeDirectories p := attempt fun s => s.makeDirectories? here p
  write p text := attempt fun s => s.write? here p text

end Storage

end Understudy.Command
