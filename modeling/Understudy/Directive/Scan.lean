import Understudy.Directive
import Understudy.Extract.Error
import Understudy.Path.Table

/-!
# Declarations by output file

All declarations with a directive, in the order of packages, files and declarations, and the groups
they form: one for each output path, from one package only.
-/

namespace Understudy.Directive

/-- A declaration with a directive, which leads to `path`. -/
structure Annotated where
  package : Nat
  file : FileId
  path : Path
  object : ObjectId
deriving DecidableEq, Repr

/-- The declarations of `file` that have a directive. -/
def annotatedIn (o : Options) (package : Nat) (file : SourceFile) : List Annotated :=
  file.decls.filterMap fun d =>
    (target? o file.path d).map fun (path, object) => { package, file := file.id, path, object }

/-- The declarations of `packages` with a directive, package by package and file by file. -/
def annotated (o : Options) (packages : List Package) : List Annotated :=
  packages.zipIdx.flatMap fun (p, index) => p.files.flatMap (annotatedIn o index)

/-- The declarations directed to one output file, all of the same `package`. -/
structure Group where
  package : Nat
  /-- The files that hold them, in ascending order. -/
  files : List FileId
  /-- Their objects, in the order of the declarations. -/
  objects : List ObjectId
deriving DecidableEq, Repr, Inhabited

/-- Puts the file `id` in its place, once. -/
def insertFile (id : FileId) : List FileId → List FileId
  | [] => [id]
  | f :: rest =>
    if id < f then id :: f :: rest
    else if f < id then f :: insertFile id rest
    else f :: rest

/-- The group `group?`, or a new one, with the declaration `a` more. -/
def Group.add (group? : Option Group) (a : Annotated) : Group :=
  let group := group?.getD { package := a.package, files := [], objects := [] }
  { group with
    files := insertFile a.file group.files
    objects := group.objects ++ [a.object] }

/-- Adds the declaration `a` to the group of its path, which has to be one of its package. -/
def place (groups : Path.Table Group) (a : Annotated) :
    Except ExtractError (Path.Table Group) :=
  if (groups.find? a.path).all (·.package = a.package) then
    .ok (groups.alter a.path fun group? => Group.add group? a)
  else .error (.mixedPackages a.path)

/-- The groups of all declarations of `packages` with a directive. -/
def scan (o : Options) (packages : List Package) : Except ExtractError (Path.Table Group) :=
  (annotated o packages).foldlM place []

end Understudy.Directive
