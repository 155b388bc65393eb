import Understudy.Proofs.Independence
import Understudy.Proofs.UsedImports

/-!
# One interface by name

The file of one interface is put together like that of a group with one object and one source file.
Where the group of a directive takes its imports from that source file alone, both have the same
list of imports. So the interface is described the same way there, whatever other objects the group
has, and what it needs is imported there too.

* `Extract.interfaceGroup_of_lookup`: the group of an interface that is found by name.
* `ImportScope.after_qualify_subset`: more packages need no fewer imports.
* `Extract.generateInterface_agrees`: the file of one interface against that of its group.
-/

namespace Understudy

/-- What `scope.qualify` notes over the packages `ps` is also noted over more of them. -/
theorem ImportScope.after_qualify_subset (scope : ImportScope) {ps ps' : List PackageRef}
    (h : ps ⊆ ps') : scope.qualify.after ps [] ⊆ scope.qualify.after ps' [] := by
  intro i hi
  rw [after_qualify, List.mem_map] at hi ⊢
  obtain ⟨path, hpath, rfl⟩ := hi
  refine ⟨path, ?_, rfl⟩
  rw [List.mem_eraseDups, List.mem_filter, List.mem_map] at hpath ⊢
  obtain ⟨⟨p, hp, rfl⟩, hown⟩ := hpath
  exact ⟨⟨p, h hp, rfl⟩, hown⟩

namespace Extract

open Directive (Group)

theorem groupInterfaces_singleton {package : Package} {scope : ImportScope} {id : ObjectId}
    {i : Mock.Interface} (h : ExtractedAs package scope id i) (used : UsedImports) :
    (groupInterfaces package scope [id]).run used =
      (.ok [i], scope.qualify.after (objectPackages package id) used) := by
  obtain ⟨object, hobject, hrun⟩ := h
  exact groupInterfaces_cons hobject (hrun used) rfl

/-- An object `id` that the scope of `package` knows by `name` and whose source file is there has a
group of its own. -/
theorem interfaceGroup_of_lookup {package : Package} {name : String} {id : ObjectId}
    {object : Object} {source : SourceFile} (hname : package.lookup? name = some id)
    (hobject : package.object? id = some object)
    (hsource : package.file? object.position.file = some source) :
    interfaceGroup package name =
      .ok { package := 0, files := [object.position.file], objects := [id] } := by
  have hid : source.id = object.position.file := by simpa using List.find?_some hsource
  simp only [interfaceGroup, hname, hobject, hsource, hid]
  rfl

/-- The `groups` of one `package` are of that package. -/
theorem package_of_scan_singleton {o : Options} {package : Package} {groups : Path.Table Group}
    (h : Directive.scan o [package] = .ok groups) {path : Path} {group : Group}
    (hgroup : (path, group) ∈ groups) : group.package = 0 := by
  rw [Directive.scan_singleton] at h
  obtain rfl := Except.ok.inj h
  obtain ⟨a, ha, -, hpackage⟩ := Directive.exists_of_mem_groups hgroup
  rw [← hpackage, Directive.package_of_mem_declared ha]

/-- The file of one interface, from `i`, what its object is extracted to. -/
theorem generateInterface_of_extractedAs {o : Options} {package : Package} {name : String}
    {id : ObjectId} {object : Object} {imports aggregated : List Import} {i : Mock.Interface}
    (hname : package.lookup? name = some id) (hobject : package.object? id = some object)
    (himports : groupImports package [object.position.file] = .ok imports)
    (haggregated : Import.aggregate o imports = .ok aggregated)
    (h : ExtractedAs package ⟨package.path, aggregated⟩ id i) :
    generateInterface o package name =
      .ok {
        package := package.name
        imports := (ImportScope.mk package.path aggregated).qualify.after
          (objectPackages package id) []
        interfaces := [i] } := by
  obtain ⟨lists, hlists, -⟩ := groupImports_ok himports
  obtain ⟨-, -, source, hsource, -⟩ := Outcome.exists_of_forall₂ hlists List.mem_cons_self
  rw [generateInterface, interfaceGroup_of_lookup hname hobject hsource]
  show assemble o [package] ⟨0, [object.position.file], [id]⟩ = _
  exact assemble_of_run rfl himports haggregated (groupInterfaces_singleton h [])

/-- An interface that a `group` with a single `source` file describes, and that is declared in that
file, is described the same way by `generateInterface`: its file is of the same package, holds
exactly the interface that the `file` of the group has in the place of the object, and imports
nothing that `file` does not. -/
theorem generateInterface_agrees {o : Options} {package : Package} {groups : Path.Table Group}
    (hscan : Directive.scan o [package] = .ok groups) {path : Path} {group : Group}
    (hgroup : (path, group) ∈ groups) {source : FileId} (hfiles : group.files = [source])
    {file : Mock.File} (hfile : assemble o [package] group = .ok file) {n : Nat} {id : ObjectId}
    (hn : group.objects[n]? = some id) {object : Object}
    (hobject : package.object? id = some object) (hsource : object.position.file = source)
    {name : String} (hname : package.lookup? name = some id) :
    ∃ single i, generateInterface o package name = .ok single ∧
      single.package = file.package ∧ file.interfaces[n]? = some i ∧ single.interfaces = [i] ∧
      single.imports ⊆ file.imports := by
  obtain ⟨package', imports, aggregated, hpackage, himports, haggregated, hrun, hfilename⟩ :=
    assemble_ok hfile
  rw [package_of_scan_singleton hscan hgroup] at hpackage
  obtain rfl : package = package' := Option.some.inj hpackage
  rw [hfiles, ← hsource] at himports
  obtain ⟨hall, hused⟩ := groupInterfaces_each hrun
  obtain ⟨i, hi, hextracted⟩ := Outcome.getElem?_of_forall₂ hall hn
  have hsingle := generateInterface_of_extractedAs hname hobject himports haggregated hextracted
  refine ⟨_, i, hsingle, hfilename.symm, hi, rfl, ?_⟩
  rw [hused]
  refine ImportScope.after_qualify_subset _ fun p hp => ?_
  exact List.mem_flatMap.2 ⟨id, List.mem_of_getElem? hn, hp⟩

/-! ## A sample -/

/-- The interfaces `I` and `J` in one file over packages of which the second has to give way to the
first. -/
def neighbours : Package where
  name := "p"
  path := "p"
  files := [{
    id := 0
    path := ⟨"p.go"⟩
    imports := [⟨"a/x", none⟩, ⟨"b/x", none⟩]
    decls := [⟨["//go:mock"], [⟨"I", some 0⟩]⟩, ⟨["//go:mock"], [⟨"J", some 1⟩]⟩] }]
  objects := #[
    { name := "I", kind := .typeName, type := 7, position := ⟨0, 1, 1⟩ },
    { name := "J", kind := .typeName, type := 8, position := ⟨0, 5, 1⟩ }]
  scope := .ofList [("I", 0), ("J", 1)]
  types := ⟨#[
    .struct [],
    .named "T" (some ⟨"a/x", "x"⟩) [] [] 0,
    .named "U" (some ⟨"b/x", "x"⟩) [] [] 0,
    .signature [⟨"", 1⟩, ⟨"", 2⟩] [] false,
    .signature [] [⟨"", 2⟩] false,
    .interface [⟨"M", 3, ⟨0, 2, 1⟩⟩] [] false,
    .interface [⟨"N", 4, ⟨0, 6, 1⟩⟩] [] false,
    .named "I" (some ⟨"p", "p"⟩) [] [] 5,
    .named "J" (some ⟨"p", "p"⟩) [] [] 6]⟩
  diagnostics := []

theorem scan_neighbours :
    Directive.scan {} [neighbours] = .ok [(⟨"p_mock.go"⟩, ⟨0, [0], [0, 1]⟩)] := by
  rfl

theorem aggregate_neighbours :
    Import.aggregate {} [⟨"a/x", none⟩, ⟨"b/x", none⟩] =
      .ok [⟨"sync/atomic", none⟩, ⟨"testing", none⟩, ⟨"a/x", none⟩, ⟨"b/x", some "x2"⟩] :=
  (Import.aggregate_of_sorted [⟨"sync/atomic", none⟩, ⟨"testing", none⟩, ⟨"a/x", none⟩,
    ⟨"b/x", none⟩] (by decide +kernel) (by decide +kernel)).trans (by decide +kernel)

theorem assemble_neighbours :
    assemble {} [neighbours] ⟨0, [0], [0, 1]⟩ =
      .ok {
        package := "p"
        imports := [⟨"a/x", none⟩, ⟨"b/x", some "x2"⟩]
        interfaces := [
          { name := "I"
            typeParams := []
            methods := [{
              name := "M"
              params := [{ name := "", type := "x.T" }, { name := "", type := "x2.U" }]
              results := []
              origin := "interface\x7bM(a/x.T, b/x.U)\x7d"
              position := ⟨0, 2, 1⟩ }] },
          { name := "J"
            typeParams := []
            methods := [{
              name := "N"
              params := []
              results := [⟨"", "x2.U"⟩]
              origin := "interface\x7bN() b/x.U\x7d"
              position := ⟨0, 6, 1⟩ }] }] } := by
  have hfirst : neighbours.types.valid 7 = true :=
    TypeGraph.valid_of_closed [0, 1, 2, 3, 4, 5, 6, 7, 8] rfl (by decide)
  have hsecond : neighbours.types.valid 8 = true :=
    TypeGraph.valid_of_closed [0, 1, 2, 3, 4, 5, 6, 7, 8] rfl (by decide)
  exact @assemble_of_run _ _ _ neighbours _ _ _ _ rfl rfl aggregate_neighbours
    (groupInterfaces_cons rfl
      (interface_of_explode rfl rfl hfirst (TypeGraph.explode_of_within 1 rfl) rfl rfl rfl
        (List.mergeSort_singleton _))
      (groupInterfaces_cons rfl
        (interface_of_explode rfl rfl hsecond (TypeGraph.explode_of_within 1 rfl) rfl rfl rfl
          (List.mergeSort_singleton _)) rfl))

/-- By itself `J` keeps the alias that it has beside `I` in `neighbours`, though the package that
the alias avoids is not imported then. -/
theorem generateInterface_agrees_neighbours :
    ∃ single, generateInterface {} neighbours "J" = .ok single ∧ single.package = "p" ∧
      single.interfaces = [{
        name := "J"
        typeParams := []
        methods := [{
          name := "N"
          params := []
          results := [⟨"", "x2.U"⟩]
          origin := "interface\x7bN() b/x.U\x7d"
          position := ⟨0, 6, 1⟩ }] }] ∧
      single.imports ⊆ [⟨"a/x", none⟩, ⟨"b/x", some "x2"⟩] := by
  obtain ⟨single, i, hsingle, hpackage, hi, hinterfaces, himports⟩ :=
    generateInterface_agrees scan_neighbours List.mem_cons_self rfl assemble_neighbours
      (n := 1) rfl rfl rfl (rfl : neighbours.lookup? "J" = some 1)
  obtain rfl := Option.some.inj hi
  exact ⟨single, hsingle, hpackage, hinterfaces, himports⟩

end Extract

end Understudy
