import Understudy.Extract.File
import Understudy.Journal

/-!
# The journal of an extraction

What describing interfaces and files reports, as a function of what they are described from. A step
that fails ends the journal of its file, and the other files are reported all the same.
-/

namespace Understudy

open Journal (Event)

/-- What `settleAll` reports: each new alias, up to the first import without a free name. -/
def Import.settleEvents (taken : List String) : List Import → List Event
  | [] => []
  | i :: rest =>
    match settle taken i with
    | .error _ => []
    | .ok j =>
      (if j = i then [] else [Event.renamed i.path j.localName]) ++
        settleEvents (j.claim?.toList ++ taken) rest

/-- What choosing a prefix for `p` reports. The package at hand needs none. -/
def ImportScope.events (scope : ImportScope) (p : PackageRef) : List Event :=
  if p.path = scope.own then []
  else
    (if (scope.find? p.path).isSome then [] else [Event.synthesized p.path]) ++
      [.qualified p.path (scope.prefixOf p)]

namespace Extract

open Directive (Group)

/-- What writing the type `id` reports. -/
def typeEvents (g : TypeGraph) (scope : ImportScope) (id : TypeId) : List Event :=
  (g.packages id).flatMap scope.events

/-- What describing methods of `g` reports, up to the first one without a signature. -/
def methodEvents (g : TypeGraph) (scope : ImportScope) : List MethodSpec → List Event
  | [] => []
  | spec :: rest =>
    match g.get? spec.signature with
    | some (.signature params results _) =>
      (params ++ results).flatMap (fun v => typeEvents g scope v.type) ++ methodEvents g scope rest
    | _ => []

/-- What describing the parts of the interface of `object` reports: its constraints, the interfaces
that it embeds, its methods. -/
def partEvents (g : TypeGraph) (scope : ImportScope) (object : Object) : List Event :=
  match g.interface? object.type with
  | none => []
  | some id =>
    (declaredTypeParams g object.type).flatMap (fun p => typeEvents g scope p.constraint) ++
      .exploded (g.explode id).length :: methodEvents g scope ((allMethods g id).map Prod.snd)

/-- What describing the interface of `object` reports, and whether it succeeds. -/
def interfaceEvents (package : Package) (scope : ImportScope) (object : Object) :
    List Event × Bool :=
  let parts := partEvents package.types scope object
  match ((interface package object scope.qualify).run []).1 with
  | .ok i => (parts ++ [.extracted i.name i.methods.length], true)
  | .error (.notASignature _) => (parts, false)
  | .error _ => ([], false)

/-- What describing objects of `package` reports, up to the first one that fails. -/
def objectEvents (package : Package) (scope : ImportScope) : List ObjectId → List Event
  | [] => []
  | id :: rest =>
    match package.object? id with
    | none => []
    | some object =>
      match interfaceEvents package scope object with
      | (events, true) => events ++ objectEvents package scope rest
      | (events, false) => events

/-- What `assemble` reports for `group`. -/
def assembleEvents (o : Options) (packages : List Package) (group : Group) : List Event :=
  match packages[group.package]? with
  | none => []
  | some package =>
    match groupImports package group.files with
    | .error _ => []
    | .ok imports =>
      Import.settleEvents [] (Import.merged o imports) ++
      (match Import.aggregate o imports with
      | .error _ => []
      | .ok imports => objectEvents package ⟨package.path, imports⟩ group.objects) ++
      match assemble o packages group with
      | .error _ => []
      | .ok file => [.assembled package.path file.interfaces.length file.imports.length]

/-- What `generateAll` reports. -/
def generateEvents (o : Options) (packages : List Package) : List Event :=
  match Directive.scan o packages with
  | .error _ => []
  | .ok groups =>
    groups.flatMap fun (path, group) =>
      .assembling path group.objects.length :: assembleEvents o packages group

/-- What `generateInterface` reports for the interface `name`. -/
def generateInterfaceEvents (o : Options) (package : Package) (name : String) : List Event :=
  match interfaceGroup package name with
  | .error _ => []
  | .ok group => assembleEvents o [package] group

end Extract

end Understudy
