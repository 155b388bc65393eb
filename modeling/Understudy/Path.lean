/-!
# Paths

A path is a text; what it means is its list of components. Repeated slashes, slashes at the end and
inner or trailing `.` segments carry no meaning, a leading `.` is a component of its own.

* `Path.components`: the meaning of a path.
* `Path.parent?`, `Path.stem?`, `Path.extension?`: parts of a path by its components. The parent
  keeps the spelling of the path it is taken from.
* `Path.join`: puts a text behind a path; a rooted text replaces the path.
* `Path.joinClean`: the lexical join, in which `.` and `..` are resolved and nothing is rooted anew.
* Paths are ordered by their components, so that two spellings of one path compare equal.
-/

namespace Understudy

/-- The text of a path. -/
structure Path where
  text : String
deriving DecidableEq, Repr, Inhabited

namespace Path

/-- A step of a path: the `root`, the current directory `here`, `up` to the parent directory, or a
`name`. -/
inductive Component
  | root
  | here
  | up
  | name (text : String)
deriving DecidableEq, Repr

namespace Component

/-- How a `Component` is written. -/
def text : Component → String
  | root => "/"
  | here => "."
  | up => ".."
  | name s => s

/-- The root comes first, then `.`, `..` and the names. -/
def rank : Component → Nat
  | root => 0
  | here => 1
  | up => 2
  | name _ => 3

/-- Components are ordered by `rank` and names among themselves by code points. -/
instance : Ord Component where
  compare a b := (compare a.rank b.rank).then (compare a.text b.text)

/-- The meaning of the text `s` between two slashes, if it has one. -/
def ofSegment? (s : List Char) : Option Component :=
  if s = [] then none
  else if s = ['.'] then none
  else if s = ['.', '.'] then some up
  else some (name (String.ofList s))

/-- The meaning of the start of a path: the root, or a `.` that stands alone. -/
def lead : List Char → List Component
  | '/' :: _ => [root]
  | ['.'] => [here]
  | '.' :: '/' :: _ => [here]
  | _ => []

/-- One step of lexical cleaning, on the components `done` so far, last one first. -/
def resolve (done : List Component) : Component → List Component
  | here => done
  | up =>
    match done with
    | name _ :: rest => rest
    | root :: _ => done
    | _ => up :: done
  | c => c :: done

end Component

/-- The texts between two `/`. There is always at least one. -/
def segments : List Char → List (List Char)
  | [] => [[]]
  | c :: cs =>
    if c = '/' then [] :: segments cs
    else
      match segments cs with
      | [] => [[c]]
      | s :: rest => (c :: s) :: rest

/-- The meaning of the path `p`. -/
def components (p : Path) : List Component :=
  Component.lead p.text.toList ++ (segments p.text.toList).filterMap Component.ofSegment?

/-- Paths compare by their `components`. -/
instance : Ord Path where
  compare p q := compare p.components q.components

/-- Puts `t` behind `p`, with a slash between them unless `p` is empty or ends in one. A rooted `t`
replaces `p`. -/
def join (p : Path) (t : String) : Path :=
  if t.toList.head? = some '/' then ⟨t⟩
  else if p.text.toList.getLast?.any (· ≠ '/') then ⟨p.text ++ "/" ++ t⟩
  else ⟨p.text ++ t⟩

/-- The path that spells out the components `cs`. -/
def ofComponents (cs : List Component) : Path :=
  cs.foldl (fun p c => p.join c.text) ⟨""⟩

/-- Resolves `.` and `..` without looking at any directory. -/
def clean (cs : List Component) : List Component :=
  (cs.foldl Component.resolve []).reverse

/-- Puts `rel` below `dir` and cleans the result. A rooted `rel` is taken below `dir` all the
same. -/
def joinClean (dir : Path) (rel : String) : Path :=
  ofComponents (clean (dir.components ++ (Path.mk rel).components.filter (· ≠ .root)))

/-- The start of a path, a `/` or a `.`, that no step upwards takes away, and what follows it. -/
def anchored : List Char → List Char × List Char
  | '/' :: body => (['/'], body)
  | ['.'] => (['.'], [])
  | '.' :: '/' :: body => (['.'], '/' :: body)
  | body => ([], body)

/-- The path without its last component, spelled as in `p`. The root and the empty path have no
parent. -/
def parent? (p : Path) : Option Path :=
  let meaningless := fun s => (Component.ofSegment? s).isNone
  let (anchor, body) := anchored p.text.toList
  match (segments body).reverse.dropWhile meaningless with
  | [] => if anchor = ['.'] then some ⟨""⟩ else none
  | _ :: rest =>
    some ⟨String.ofList (anchor ++ ['/'].intercalate (rest.dropWhile meaningless).reverse)⟩

/-- The name that `p` ends in. -/
def fileName? (p : Path) : Option String :=
  match p.components.getLast? with
  | some (.name s) => some s
  | _ => none

/-- The file name `name` cut at its last dot. A name whose only dot comes first has no extension. -/
def splitName (name : String) : String × Option String :=
  let cs := name.toList
  let after := (cs.reverse.takeWhile (· ≠ '.')).reverse
  let before := (cs.reverse.dropWhile (· ≠ '.')).tail.reverse
  if before = [] then (name, none) else (String.ofList before, some (String.ofList after))

/-- The file name of `p` without its extension. -/
def stem? (p : Path) : Option String :=
  p.fileName?.map fun name => (splitName name).1

/-- What follows the last dot of the file name of `p`. -/
def extension? (p : Path) : Option String :=
  p.fileName?.bind fun name => (splitName name).2

end Path

end Understudy
