import Understudy.Name

/-!
# Imports

An import names a package by its path, under the last segment of that path or under an alias. The
alias `_` imports a package for its effects only, and `.` merges its names into the file.
-/

namespace Understudy

/-- An import of the package at `path`, with its alias `name` if it has one. -/
structure Import where
  path : String
  name : Option String := none
deriving DecidableEq, Repr, Inhabited

namespace Import

/-- The name by which a file with the import `i` refers to the package. -/
def localName (i : Import) : String :=
  i.name.getD (Name.lastSegment i.path)

/-- Whether `i` imports a package for its effects only. -/
def isBlank (i : Import) : Bool := i.name = some "_"

/-- Whether `i` merges the names of the package into the file. -/
def isDot (i : Import) : Bool := i.name = some "."

/-- How `i` is written in source text. -/
def text (i : Import) : String :=
  match i.name with
  | some name => name ++ " " ++ Text.quoted i.path
  | none => Text.quoted i.path

/-- Imports are ordered by `path`, and those of one path by `name` with the plain one first. -/
instance : Ord Import where
  compare a b := (compare a.path b.path).then (compare a.name b.name)

/-- The name that `i` takes in its file, if it takes one. -/
def claim? (i : Import) : Option String :=
  if i.isBlank || i.isDot then none else some i.localName

end Import

end Understudy
