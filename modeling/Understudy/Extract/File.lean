import Understudy.Directive.Scan
import Understudy.Extract.Interface
import Understudy.Import.Aggregate
import Understudy.Import.Scope

/-!
# From declarations to mock files

* `Extract.assemble`: the file of one group. All its interfaces are written with one set of imports,
  and the file imports what they use.
* `Extract.generateEach`: the files of all groups, each with its own success or failure.
* `Extract.generateAll`: the same, failing with the first group that fails.
* `Extract.generateInterface`: the file of one interface by name, whatever its directives.
-/

namespace Understudy.Extract

open Directive (Group)

/-- The imports of the `files` of a group. -/
def groupImports (package : Package) (files : List FileId) : Except ExtractError (List Import) := do
  let lists ← files.mapM fun id =>
    match package.file? id with
    | some file => .ok file.imports
    | none => .error (.lookup (.file id package.name))
  return lists.flatten

/-- The interfaces of the `objects` of a group, with the imports that they use. -/
def groupInterfaces (package : Package) (scope : ImportScope) (objects : List ObjectId) :
    Extraction UsedImports (List Mock.Interface) :=
  objects.mapM fun id =>
    match package.object? id with
    | some object => interface package object scope.qualify
    | none => throw (.lookup (.object id package.name))

/-- The mock file of `group`. -/
def assemble (o : Options) (packages : List Package) (group : Group) :
    Except ExtractError Mock.File := do
  let some package := packages[group.package]? | .error (.lookup (.package group.package))
  let imports ← groupImports package group.files
  let imports ← (Import.aggregate o imports).mapError .nameResolution
  match (groupInterfaces package ⟨package.path, imports⟩ group.objects).run [] with
  | (.error e, _) => .error e
  | (.ok interfaces, used) => .ok { package := package.name, imports := used, interfaces }

/-- The mock file of each group, or why there is none. At a path with `.endless` the writing of the
file does not come to an end. -/
def generateEach (o : Options) (packages : List Package) :
    Except ExtractError (Path.Table (Except ExtractError Mock.File)) := do
  let groups ← Directive.scan o packages
  return groups.map fun (path, group) => (path, assemble o packages group)

/-- The mock files of all groups of `packages`. The first group without one decides the error. -/
def generateAll (o : Options) (packages : List Package) :
    Except ExtractError (Path.Table Mock.File) := do
  let files ← generateEach o packages
  files.mapM fun (path, file) => return (path, ← file)

/-- The group that holds the interface `name`, with the file that declares it. -/
def interfaceGroup (package : Package) (name : String) : Except ExtractError Group := do
  let some id := package.lookup? name | .error (.lookup (.interface name package.name))
  let some object := package.object? id | .error (.lookup (.interface name package.name))
  let some file := package.file? object.position.file
    | .error (.lookup (.declaration name package.name))
  return { package := 0, files := [file.id], objects := [id] }

/-- The mock file of the interface `name`. -/
def generateInterface (o : Options) (package : Package) (name : String) :
    Except ExtractError Mock.File := do
  assemble o [package] (← interfaceGroup package name)

end Understudy.Extract
