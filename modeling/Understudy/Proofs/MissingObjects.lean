import Understudy.Proofs.Failures
import Understudy.Proofs.Independence
import Understudy.Proofs.Scanning

/-!
# What an assembly looks up

A group holds numbers: of its package, of its source files and of its objects. The scan takes the
first two from packages and files that it goes through, so they are found again, also where several
files have one number or a group is made up of many declarations. The number of an object is taken
from the declaration as it stands there, and is the only one that can be wrong. Even then the group
may fail otherwise before, over the names of its imports or over an object that comes earlier.

* `Directive.exists_package_of_mem_groups`: the package and the files of a group are there.
* `Extract.Describable`, `Extract.Refused`: an object that gives an interface, and why one does not.
* `Extract.groupInterfaces_error_iff`, `Extract.assemble_error_iff`: a group fails with its first
  object that is refused, unless its imports cannot be given names.
* `Extract.StopsAt`: a declaration over whose object a group fails.
* `Extract.generateEach_lookup_iff`: when the generation of files fails to look something up.
-/

namespace Understudy

namespace Directive

/-! ## Packages and files -/

/-- A declaration `a` that a scan takes has the number of a package and that of a file. -/
theorem exists_file_of_mem_annotated {o : Options} {packages : List Package} {a : Annotated}
    (h : a ∈ annotated o packages) :
    ∃ package, packages[a.package]? = some package ∧
      ∃ file ∈ package.files, package.file? a.file = some file := by
  obtain ⟨package, hpackage, hdeclared⟩ := mem_annotated.1 h
  obtain ⟨source, hsource, ha⟩ := List.mem_flatMap.1 hdeclared
  obtain ⟨d, -, hd⟩ := List.mem_filterMap.1 ha
  obtain ⟨target, -, heq⟩ := Option.map_eq_some_iff.1 hd
  have hid : source.id = a.file := congrArg Annotated.file heq
  -- another file with that number may come before the one that holds the declaration
  have hfound : (package.file? a.file).isSome :=
    List.find?_isSome.2 ⟨source, hsource, decide_eq_true hid⟩
  obtain ⟨file, hfile⟩ := Option.isSome_iff_exists.1 hfound
  exact ⟨package, hpackage, file, List.mem_of_find?_eq_some hfile, hfile⟩

theorem exists_package_of_mem_groups {o : Options} {packages : List Package}
    (hunmixed : Unmixed (annotated o packages)) {path : Path} {group : Group}
    (h : (path, group) ∈ groups (annotated o packages)) :
    ∃ package, packages[group.package]? = some package ∧
      ∀ id ∈ group.files, ∃ file ∈ package.files, package.file? id = some file := by
  obtain ⟨a, ha, -, hsame⟩ := exists_of_mem_groups h
  obtain ⟨package, hpackage, -⟩ := exists_file_of_mem_annotated ha
  rw [hsame] at hpackage
  refine ⟨package, hpackage, fun id hid => ?_⟩
  obtain ⟨b, hb, rfl⟩ := ((hunmixed.grouped.files _ h).2 id).1 hid
  obtain ⟨package', hpackage', hfile⟩ := exists_file_of_mem_annotated (List.mem_filter.1 hb).1
  rw [hunmixed.grouped.package _ h b hb, hpackage] at hpackage'
  obtain rfl := Option.some.inj hpackage'
  exact hfile

end Directive

namespace Extract

open Directive (Annotated Group annotated groups declarations DirectedAs)
open Path.Table (itemsAt)

theorem exists_groupImports {package : Package} {files : List FileId}
    (h : ∀ id ∈ files, ∃ file, package.file? id = some file) :
    ∃ imports, groupImports package files = .ok imports := by
  cases himports : groupImports package files with
  | ok imports => exact ⟨imports, rfl⟩
  | error e =>
    rcases Outcome.bind_error himports with hlists | ⟨lists, -, hpure⟩
    · obtain ⟨before, id, after, rfl, -, hid⟩ := Outcome.mapM_error_iff.1 hlists
      obtain ⟨file, hfile⟩ := h id (List.mem_append_right _ List.mem_cons_self)
      rw [hfile] at hid
      cases hid
    · cases hpure

/-! ## Objects -/

/-- The number `id` is that of an object whose extraction `Completes`. -/
def Describable (package : Package) (id : ObjectId) : Prop :=
  ∃ object i, package.object? id = some object ∧ Completes package object i

/-- Why the object with the number `id` gives no interface: there is none, it has a `Fault`, or its
extraction is `Stuck`. -/
inductive Refused (package : Package) (id : ObjectId) : ExtractError → Prop
  | missing (h : package.objects.size ≤ id.toNat) :
    Refused package id (.lookup (.object id package.name))
  | fault {object : Object} {e : ExtractError} {asked : List PackageRef}
      (hobject : package.object? id = some object) (hfault : Fault package object e asked) :
    Refused package id e
  | stuck {object : Object} {i : TypeId} (hobject : package.object? id = some object)
      (hstuck : Stuck package object i) : Refused package id .endless

theorem describable_or_refused (package : Package) (id : ObjectId) :
    Describable package id ∨ ∃ e, Refused package id e := by
  cases hobject : package.object? id with
  | none => exact .inr ⟨_, .missing (Array.getElem?_eq_none_iff.1 hobject)⟩
  | some object =>
    rcases extractable_or_fault_or_stuck package object with
      ⟨i, hi⟩ | ⟨e, asked, hfault⟩ | ⟨i, hstuck⟩
    · exact .inl ⟨object, i, hobject, hi⟩
    · exact .inr ⟨e, .fault hobject hfault⟩
    · exact .inr ⟨_, .stuck hobject hstuck⟩

/-- `interface` looks up nothing by itself: only an `id` that is out of range fails to be found. -/
theorem refused_lookup_iff {package : Package} {id : ObjectId} {failure : LookupFailure} :
    Refused package id (.lookup failure) ↔
      package.objects.size ≤ id.toNat ∧ failure = .object id package.name := by
  constructor
  · rintro (h | ⟨_, hfault⟩)
    · exact ⟨h, rfl⟩
    · cases hfault
  · rintro ⟨h, rfl⟩
    exact .missing h

theorem not_refused_mixedPackages {package : Package} {id : ObjectId} {path : Path} :
    ¬ Refused package id (.mixedPackages path) := by
  intro h
  cases h with
  | fault _ hfault => cases hfault

/-- The interface of the object `id` of a group. -/
def objectInterface (package : Package) (scope : ImportScope) (id : ObjectId) :
    Extraction UsedImports Mock.Interface :=
  match package.object? id with
  | some object => interface package object scope.qualify
  | none => throw (.lookup (.object id package.name))

theorem groupInterfaces_eq (package : Package) (scope : ImportScope) (objects : List ObjectId) :
    groupInterfaces package scope objects = objects.mapM (objectInterface package scope) := rfl

theorem Describable.run {package : Package} {id : ObjectId} (h : Describable package id)
    (scope : ImportScope) (used : UsedImports) :
    ∃ i, (objectInterface package scope id).run used =
      (.ok i, ((objectInterface package scope id).run used).2) := by
  obtain ⟨object, k, hobject, hcompletes⟩ := h
  obtain ⟨i, used₁, hrun⟩ := hcompletes.run scope.qualify used
  refine ⟨i, ?_⟩
  rw [objectInterface, hobject]
  simp only [hrun]

theorem Refused.run {package : Package} {id : ObjectId} {e : ExtractError}
    (h : Refused package id e) (scope : ImportScope) (used : UsedImports) :
    ∃ used₁, (objectInterface package scope id).run used = (.error e, used₁) := by
  cases h with
  | missing h =>
    have hnone : package.object? id = none := Array.getElem?_eq_none_iff.2 h
    rw [objectInterface, hnone]
    exact ⟨used, rfl⟩
  | fault hobject hfault =>
    rw [objectInterface, hobject]
    exact ⟨_, hfault.run scope.qualify used⟩
  | stuck hobject hstuck =>
    rw [objectInterface, hobject]
    exact hstuck.run scope.qualify used

/-! ## Groups -/

/-- The `objects` are `Refused` at the first that gives no interface, with the error `e`. -/
def RefusedFirst (package : Package) (objects : List ObjectId) (e : ExtractError) : Prop :=
  ∃ before id after, objects = before ++ id :: after ∧
    (∀ b ∈ before, Describable package b) ∧ Refused package id e

theorem RefusedFirst.run {package : Package} {objects : List ObjectId} {e : ExtractError}
    (h : RefusedFirst package objects e) (scope : ImportScope) (used : UsedImports) :
    ∃ used₁, (groupInterfaces package scope objects).run used = (.error e, used₁) := by
  obtain ⟨before, id, after, rfl, hbefore, hrefused⟩ := h
  obtain ⟨used₁, hrun⟩ := hrefused.run scope
    (before.foldl (fun used b => ((objectInterface package scope b).run used).2) used)
  exact ⟨used₁, Outcome.run_mapM_error (fun b hb => (hbefore b hb).run scope) hrun after⟩

/-- Whatever the imports of `scope` are, `groupInterfaces` fails with the first of `objects` that is
`Refused`. -/
theorem groupInterfaces_error_iff {package : Package} {scope : ImportScope}
    {objects : List ObjectId} {used : UsedImports} {e : ExtractError} :
    (∃ used₁, (groupInterfaces package scope objects).run used = (.error e, used₁)) ↔
      RefusedFirst package objects e := by
  constructor
  · rintro ⟨used₁, hrun⟩
    by_cases hall : ∀ id ∈ objects, Describable package id
    · obtain ⟨interfaces, hok⟩ :=
        Outcome.exists_run_mapM (fun id hid => (hall id hid).run scope) used
      rw [← groupInterfaces_eq, hrun] at hok
      cases hok
    · obtain ⟨before, id, after, hsplit, hbefore, hid⟩ := Outcome.exists_first_not hall
      obtain ⟨e', hrefused⟩ := (describable_or_refused package id).resolve_left hid
      have hfirst : RefusedFirst package objects e' :=
        ⟨before, id, after, hsplit, hbefore, hrefused⟩
      obtain ⟨used₂, hrun'⟩ := hfirst.run scope used
      rw [hrun] at hrun'
      cases hrun'
      exact hfirst
  · intro h
    exact h.run scope used

/-- `assemble` fails for a `group` whose `package` and files are there over the names of its
`imports`, or else with its first object that is `Refused`. -/
theorem assemble_error_iff {o : Options} {packages : List Package} {group : Group}
    {package : Package} {imports : List Import} {e : ExtractError}
    (hpackage : packages[group.package]? = some package)
    (himports : groupImports package group.files = .ok imports) :
    assemble o packages group = .error e ↔
      (∃ cause, Import.aggregate o imports = .error cause ∧ e = .nameResolution cause) ∨
        (∃ merged, Import.aggregate o imports = .ok merged) ∧
          RefusedFirst package group.objects e := by
  cases hmerged : Import.aggregate o imports with
  | error cause =>
    have herror : assemble o packages group = .error (.nameResolution cause) := by
      rw [assemble, hpackage]
      simp only [himports, hmerged, Except.mapError, bind, Except.bind]
    rw [herror]
    simp [eq_comm]
  | ok merged =>
    rw [← @groupInterfaces_error_iff package ⟨package.path, merged⟩ group.objects [] e, assemble,
      hpackage]
    simp only [himports, hmerged, Except.mapError, bind, Except.bind]
    cases hrun : (groupInterfaces package ⟨package.path, merged⟩ group.objects).run [] with
    | mk r used =>
      cases r with
      | error e' =>
        refine ⟨fun h => .inr ⟨⟨merged, rfl⟩, used, ?_⟩, ?_⟩
        · cases h; rfl
        · rintro (⟨_, h, -⟩ | ⟨-, _, h⟩)
          · cases h
          · cases h; rfl
      | ok interfaces =>
        refine ⟨fun h => ?_, ?_⟩
        · cases h
        · rintro (⟨_, h, -⟩ | ⟨-, _, h⟩) <;> cases h

/-! ## Declarations -/

/-- The group of a path fails over the object of the declaration `a`, which is directed there and
whose number is out of range in its package. The imports of the group have been given names by
then, and the declarations before it have given interfaces. -/
structure StopsAt (o : Options) (packages : List Package) (path : Path) (group : Group)
    (package : Package) (a : Annotated) : Prop where
  declared : ∃ d ∈ declarations packages, d.isAnnotated o = true ∧ DirectedAs o d a
  directed : a.path.components = path.components
  package_eq : packages[a.package]? = some package
  missing : package.objects.size ≤ a.object.toNat
  settled : ∃ imports merged, groupImports package group.files = .ok imports ∧
    Import.aggregate o imports = .ok merged
  first : ∃ before after, itemsAt Annotated.path (annotated o packages) path =
      before ++ a :: after ∧ ∀ b ∈ before, Describable package b.object

theorem exists_declaration {o : Options} {packages : List Package} {a : Annotated}
    (h : a ∈ annotated o packages) :
    ∃ d ∈ declarations packages, d.isAnnotated o = true ∧ DirectedAs o d a := by
  rw [Directive.annotated_eq_filterMap] at h
  obtain ⟨d, hd, ha⟩ := List.mem_filterMap.1 h
  refine ⟨d, hd, ?_, Directive.directedAs_of_annotated? ha⟩
  rw [Directive.isAnnotated_eq, ha]
  rfl

theorem assemble_lookup_iff {o : Options} {packages : List Package}
    (hunmixed : Directive.Unmixed (annotated o packages)) {path : Path} {group : Group}
    (hgroup : (path, group) ∈ groups (annotated o packages)) {package : Package}
    (hpackage : packages[group.package]? = some package) {imports : List Import}
    (himports : groupImports package group.files = .ok imports) {failure : LookupFailure} :
    assemble o packages group = .error (.lookup failure) ↔
      ∃ a, StopsAt o packages path group package a ∧
        failure = .object a.object package.name := by
  have hobjects : group.objects = _ := hunmixed.grouped.objects _ hgroup
  rw [assemble_error_iff hpackage himports]
  constructor
  · rintro (⟨_, _, he⟩ | ⟨⟨merged, hmerged⟩, before, id, after, hsplit, hbefore, hrefused⟩)
    · cases he
    · obtain ⟨hmissing, rfl⟩ := refused_lookup_iff.1 hrefused
      rw [hobjects, List.map_eq_append_iff] at hsplit
      obtain ⟨first, rest, hitems, rfl, hrest⟩ := hsplit
      obtain ⟨a, rest, rfl, rfl, rfl⟩ := List.map_eq_cons_iff.1 hrest
      have hat : a ∈ itemsAt Annotated.path (annotated o packages) path := by
        rw [hitems]
        exact List.mem_append_right _ List.mem_cons_self
      obtain ⟨ha, hpath⟩ := List.mem_filter.1 hat
      exact ⟨a, {
        declared := exists_declaration ha
        directed := of_decide_eq_true hpath
        package_eq := by rw [hunmixed.grouped.package _ hgroup a hat, hpackage]
        missing := hmissing
        settled := ⟨imports, merged, himports, hmerged⟩
        first := ⟨first, rest, hitems, fun b hb => hbefore _ (List.mem_map_of_mem hb)⟩ }, rfl⟩
  · rintro ⟨a, ⟨-, -, -, hmissing, ⟨imports', merged, himports', hmerged⟩,
      before, after, hitems, hbefore⟩, rfl⟩
    rw [himports] at himports'
    obtain rfl := Except.ok.inj himports'
    refine .inr ⟨⟨merged, hmerged⟩, before.map (·.object), a.object, after.map (·.object), ?_, ?_,
      .missing hmissing⟩
    · rw [hobjects, hitems, List.map_append, List.map_cons]
    · intro id hid
      obtain ⟨b, hb, rfl⟩ := List.mem_map.1 hid
      exact hbefore b hb

/-- After a `scan` that gave the groups `t`, `generateEach` gives every `path` of `t` a `result`.
The `package` and the files of its `group` are there. The `result` is a `lookup` error exactly if
the `group` comes to a declaration whose object is out of range in `package.objects`, and it is
never `mixedPackages`. -/
theorem generateEach_lookup_iff {o : Options} {packages : List Package} {t : Path.Table Group}
    (hscan : Directive.scan o packages = .ok t) :
    ∃ files, generateEach o packages = .ok files ∧ files.map (·.1) = t.map (·.1) ∧
      ∀ path result, (path, result) ∈ files → ∃ group package, (path, group) ∈ t ∧
        packages[group.package]? = some package ∧
        (∀ id ∈ group.files, ∃ file ∈ package.files, package.file? id = some file) ∧
        (∀ failure, result = .error (.lookup failure) ↔
          ∃ a, StopsAt o packages path group package a ∧
            failure = .object a.object package.name) ∧
        ∀ other, result ≠ .error (.mixedPackages other) := by
  obtain ⟨hunmixed, rfl⟩ := Directive.scan_ok hscan
  refine ⟨filesOf o packages, generateEach_of_unmixed hunmixed, ?_, fun path result hresult => ?_⟩
  · rw [filesOf, List.map_map]
    rfl
  · obtain ⟨⟨path, group⟩, hgroup, heq⟩ := List.mem_map.1 hresult
    obtain ⟨rfl, rfl⟩ := Prod.mk.inj heq
    obtain ⟨package, hpackage, hfiles⟩ := Directive.exists_package_of_mem_groups hunmixed hgroup
    obtain ⟨imports, himports⟩ := exists_groupImports fun id hid =>
      (hfiles id hid).imp fun _ => And.right
    refine ⟨group, package, hgroup, hpackage, hfiles, fun failure =>
      assemble_lookup_iff hunmixed hgroup hpackage himports, fun other hother => ?_⟩
    rcases (assemble_error_iff hpackage himports).1 hother with
      ⟨_, -, he⟩ | ⟨-, _, _, _, -, -, hrefused⟩
    · cases he
    · exact not_refused_mixedPackages hrefused

/-- Two files with the same number are directed to `x.go`. The object that the second of them
declares is not there. -/
def dangling : Package where
  name := "p"
  path := "p"
  files := [
    ⟨0, ⟨"a.go"⟩, [], [⟨["//go:mock x.go"], [⟨"I", some 0⟩]⟩]⟩,
    ⟨0, ⟨"b.go"⟩, [], [⟨["//go:mock x.go"], [⟨"J", some 1⟩]⟩]⟩]
  objects := #[{ name := "I", kind := .typeName, type := 0, position := ⟨0, 1, 1⟩ }]
  scope := .empty
  types := ⟨#[.interface [] [] false]⟩
  diagnostics := []

theorem scan_dangling :
    Directive.scan {} [dangling] = .ok [(⟨"x.go"⟩, ⟨0, [0], [0, 1]⟩)] := by
  rfl

theorem explode_dangling : dangling.types.explode 0 = [0] :=
  TypeGraph.explode_of_within 1 rfl

theorem listedMethods_dangling : listedMethods dangling.types 0 = [] := by
  rw [listedMethods, explode_dangling]
  rfl

theorem written_dangling :
    (writtenUntil dangling.types 0 0 []).all dangling.types.hasText = true := by
  rw [writtenUntil, TypeGraph.comparedTypes, explode_dangling]
  rfl

theorem describable_dangling : Describable dangling 0 := by
  refine ⟨_, 0, rfl, ⟨rfl, TypeGraph.interface?_eq_some_iff.1 rfl, ?_, ?_⟩, ?_⟩
  · exact TypeGraph.valid_iff_sound.1 (TypeGraph.valid_of_closed [0] rfl (by decide))
  · intro member hmember spec hspec
    have hlisted := mem_listedMethods.2 ⟨member, hmember, hspec⟩
    rw [listedMethods_dangling] at hlisted
    exact absurd hlisted List.not_mem_nil
  · intro t ht
    rw [listedMethods_dangling] at ht
    exact TypeGraph.hasText_iff.1 (List.all_eq_true.1 written_dangling t ht)

theorem stopsAt_dangling :
    StopsAt {} [dangling] ⟨"x.go"⟩ ⟨0, [0], [0, 1]⟩ dangling ⟨0, 0, ⟨"x.go"⟩, 1⟩ where
  declared := exists_declaration (List.mem_cons_of_mem _ List.mem_cons_self)
  directed := rfl
  package_eq := rfl
  missing := by decide
  settled := ⟨[], _, rfl, Import.aggregate_nil⟩
  first := by
    refine ⟨[⟨0, 0, ⟨"x.go"⟩, 0⟩], [], rfl, fun b hb => ?_⟩
    obtain rfl := List.mem_singleton.1 hb
    exact describable_dangling

/-- In `dangling` the file is found under its number, and the missing object is named. -/
theorem generateEach_lookup_iff_dangling :
    Directive.scan {} [dangling] = .ok [(⟨"x.go"⟩, ⟨0, [0], [0, 1]⟩)] ∧
      generateEach {} [dangling] = .ok [(⟨"x.go"⟩, .error (.lookup (.object 1 "p")))] := by
  obtain ⟨files, hfiles, hkeys, hresults⟩ := generateEach_lookup_iff scan_dangling
  obtain ⟨⟨path, result⟩, rest, rfl, rfl, hrest⟩ := List.map_eq_cons_iff.1 hkeys
  obtain rfl := List.map_eq_nil_iff.1 hrest
  obtain ⟨group, package, hgroup, hpackage, -, hlookup, -⟩ := hresults _ _ List.mem_cons_self
  obtain ⟨-, rfl⟩ := Prod.mk.inj (List.mem_singleton.1 hgroup)
  obtain rfl : dangling = package := Option.some.inj hpackage
  have hresult := (hlookup _).2 ⟨_, stopsAt_dangling, rfl⟩
  exact ⟨scan_dangling, by rw [hfiles, hresult]; rfl⟩

end Extract

end Understudy
