import Understudy.Import
import Understudy.TypeText.Writer

/-!
# Prefixes from imports

Inside a file a name of another package stands behind the name of its import. `ImportScope.qualify`
finds that import and notes that it is used; a package that the file does not import gets an import
of its own.
-/

namespace Understudy

/-- The imports used so far, one for each path, in order of first use. `record` adds to them. -/
abbrev UsedImports := List Import

/-- Notes `i` in `used`, unless an import with its path is there. -/
def UsedImports.record (used : UsedImports) (i : Import) : UsedImports :=
  if used.any (·.path = i.path) then used else used ++ [i]

/-- What decides prefixes: the path `own` of the package at hand and the `imports` of its file. -/
structure ImportScope where
  own : String
  imports : List Import
deriving DecidableEq, Repr, Inhabited

namespace ImportScope

/-- The import under which the package at `path` can be referred to. -/
def find? (scope : ImportScope) (path : String) : Option Import :=
  scope.imports.find? fun i => i.path = path && !i.isBlank

/-- The import that a reference to `p` uses. -/
def importOf (scope : ImportScope) (p : PackageRef) : Import :=
  (scope.find? p.path).getD { path := p.path }

/-- What is written before the names of `p`: nothing for the package at hand and for a merged one,
else the alias, or `p.name` if there is none. -/
def prefixOf (scope : ImportScope) (p : PackageRef) : String :=
  if p.path = scope.own then ""
  else
    let i := scope.importOf p
    if i.isDot then "" else i.name.getD p.name

/-- Gives the `prefixOf` a package and notes the import that it needs. -/
def qualify (scope : ImportScope) : Qualifier UsedImports := fun p used =>
  if p.path = scope.own then ("", used)
  else (scope.prefixOf p, used.record (scope.importOf p))

end ImportScope

end Understudy
