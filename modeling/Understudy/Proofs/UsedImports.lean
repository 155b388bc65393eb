import Understudy.Extract.File
import Understudy.Proofs.Aggregation
import Understudy.Proofs.Explosion
import Understudy.Proofs.Extraction
import Understudy.Proofs.Parametricity
import Understudy.Proofs.Reachability

/-!
# The imports of a mock file

A file imports what the types written in it need. The qualifier that the objects of a group share
notes an import at the first mention of its package, so the list can be told from the printed
packages alone.

* `ImportScope.qualify_answers`: the prefix of a package does not depend on what was noted before.
* `ImportScope.after_qualify`: what is noted over a list of packages.
* `ImportScope.noted_accounts`: what is noted tells the answers that were given.
* `Extract.groupPackages`: the packages printed for the objects of a group, in order.
* `Extract.groupInterfaces_each`: each object of a group is extracted as it would be alone.
* `Extract.assemble_ok`, `Extract.assemble_of_run`: the steps of an assembly that succeeded, and the
  converse.
* `Extract.assemble_imports_exact`: the imports of a file are those of its printed packages.
-/

namespace Understudy

/-! ## Noting imports -/

namespace ImportScope

theorem qualify_answers (scope : ImportScope) : scope.qualify.Answers scope.prefixOf := by
  intro p used
  unfold qualify
  split
  · rename_i hown; simp [prefixOf, hown]
  · rfl

/-- The import under which `path` is noted. -/
def importAt (scope : ImportScope) (path : String) : Import :=
  (scope.imports.find? fun i => i.path = path && !i.isBlank).getD { path }

theorem importOf_eq (scope : ImportScope) (p : PackageRef) :
    scope.importOf p = scope.importAt p.path := rfl

theorem importAt_cases (scope : ImportScope) (path : String) :
    (scope.importAt path ∈ scope.imports ∧ (scope.importAt path).path = path ∧
      (scope.importAt path).isBlank = false) ∨
    ((∀ i ∈ scope.imports, i.path = path → i.isBlank = true) ∧
      scope.importAt path = { path }) := by
  unfold importAt
  cases hfind : scope.imports.find? fun i => i.path = path && !i.isBlank with
  | none =>
    refine .inr ⟨fun i hi hp => ?_, rfl⟩
    simpa [hp] using List.find?_eq_none.1 hfind i hi
  | some i =>
    have hi : i.path = path ∧ i.isBlank = false := by simpa using List.find?_some hfind
    exact .inl ⟨List.mem_of_find?_eq_some hfind, hi.1, hi.2⟩

@[simp] theorem importAt_path (scope : ImportScope) (path : String) :
    (scope.importAt path).path = path := by
  rcases scope.importAt_cases path with ⟨-, h, -⟩ | ⟨-, h⟩
  · exact h
  · rw [h]

theorem importAt_isBlank (scope : ImportScope) (path : String) :
    (scope.importAt path).isBlank = false := by
  rcases scope.importAt_cases path with ⟨-, -, h⟩ | ⟨-, h⟩
  · exact h
  · rw [h]; rfl

/-- `record` adds the import of `path` unless that is among `paths`. -/
theorem record_importAt (scope : ImportScope) (paths : List String) (path : String) :
    UsedImports.record (paths.map scope.importAt) (scope.importAt path) =
      (if path ∈ paths then paths else paths ++ [path]).map scope.importAt := by
  have hany : (paths.map scope.importAt).any (·.path = (scope.importAt path).path) = true ↔
      path ∈ paths := by simp
  unfold UsedImports.record
  by_cases hmem : path ∈ paths
  · rw [if_pos (hany.2 hmem), if_pos hmem]
  · rw [if_neg (mt hany.1 hmem), if_neg hmem, List.map_append]
    rfl

theorem eraseDups_append_singleton (paths : List String) (path : String) :
    (paths ++ [path]).eraseDups =
      if path ∈ paths.eraseDups then paths.eraseDups else paths.eraseDups ++ [path] := by
  rw [List.eraseDups_append]
  by_cases hmem : path ∈ paths
  · simp [List.removeAll, hmem]
  · simp [List.removeAll, hmem, List.eraseDups_cons]

theorem nodup_eraseDups (paths : List String) : paths.eraseDups.Nodup := by
  induction paths using List.reverseRecOn with
  | nil => exact List.nodup_nil
  | append_singleton paths path ih =>
    rw [eraseDups_append_singleton]
    by_cases hmem : path ∈ paths.eraseDups
    · rwa [if_pos hmem]
    · rw [if_neg hmem, ← List.concat_eq_append]
      exact ih.concat hmem

/-- Over the packages `ps` one import is noted for each path that is not `scope.own`, in the order
of first mention. -/
theorem after_qualify (scope : ImportScope) (ps : List PackageRef) :
    scope.qualify.after ps [] =
      (((ps.map (·.path)).filter (· ≠ scope.own)).eraseDups).map scope.importAt := by
  -- a package mentioned last is looked up among those mentioned before
  induction ps using List.reverseRecOn with
  | nil => rfl
  | append_singleton ps p ih =>
    rw [Qualifier.after_append, ih, List.map_append, List.filter_append]
    show (scope.qualify p _).2 = _
    unfold qualify
    by_cases hown : p.path = scope.own
    · simp [hown]
    · have hlast : [p.path].filter (· ≠ scope.own) = [p.path] := by simp [hown]
      rw [if_neg hown, importOf_eq, record_importAt, List.map_singleton, hlast,
        eraseDups_append_singleton]

theorem paths_after_qualify (scope : ImportScope) (ps : List PackageRef) :
    (scope.qualify.after ps []).map (·.path) =
      ((ps.map (·.path)).filter (· ≠ scope.own)).eraseDups := by
  rw [after_qualify, List.map_map]
  simp [Function.comp_def]

/-- A noted import `i` is the one that its path is looked up with. -/
theorem eq_importAt_of_mem_after {scope : ImportScope} {ps : List PackageRef} {i : Import}
    (h : i ∈ scope.qualify.after ps []) : i = scope.importAt i.path ∧ i.path ≠ scope.own := by
  rw [after_qualify, List.mem_map] at h
  obtain ⟨path, hpath, rfl⟩ := h
  rw [importAt_path]
  exact ⟨rfl, by simpa using (List.mem_filter.1 (List.mem_eraseDups.1 hpath)).2⟩

theorem importAt_mem_after {scope : ImportScope} {ps : List PackageRef} {p : PackageRef}
    (hp : p ∈ ps) (hown : p.path ≠ scope.own) :
    scope.importAt p.path ∈ scope.qualify.after ps [] := by
  rw [after_qualify]
  refine List.mem_map_of_mem (List.mem_eraseDups.2 (List.mem_filter.2 ⟨?_, by simpa using hown⟩))
  exact List.mem_map_of_mem hp

theorem prefixOf_eq_importAt {scope : ImportScope} {p : PackageRef} (hown : p.path ≠ scope.own) :
    scope.prefixOf p =
      if (scope.importAt p.path).isDot then "" else (scope.importAt p.path).name.getD p.name := by
  rw [prefixOf, if_neg hown, importOf_eq]

/-- Whatever packages `ps` are asked about, the imports that `scope.qualify` notes are one for each
path other than `scope.own`, in the order of the first questions, and none of them is blank. An
answer does not depend on the questions before it, and it is told by the import noted for its path:
nothing for a merged package, else the alias, or the name that the package declares if there is
none. -/
theorem noted_accounts (scope : ImportScope) (ps : List PackageRef) :
    ((scope.qualify.after ps []).map (·.path)).Nodup ∧
    (∀ i ∈ scope.qualify.after ps [], i.isBlank = false ∧ i.path ≠ scope.own) ∧
    (scope.qualify.after ps []).map (·.path) =
      ((ps.map (·.path)).filter (· ≠ scope.own)).eraseDups ∧
    scope.qualify.answers ps [] = ps.map (fun p => (scope.qualify p []).1) ∧
    ∀ p ∈ ps, p.path ≠ scope.own → ∃ i ∈ scope.qualify.after ps [], i.path = p.path ∧
      (scope.qualify p []).1 = if i.isDot then "" else i.name.getD p.name := by
  refine ⟨?_, ?_, scope.paths_after_qualify ps, ?_, ?_⟩
  · rw [paths_after_qualify]
    exact nodup_eraseDups _
  · intro i hi
    obtain ⟨heq, hown⟩ := eq_importAt_of_mem_after hi
    rw [heq]
    exact ⟨scope.importAt_isBlank i.path, by rwa [importAt_path]⟩
  · rw [Qualifier.answers_eq_map scope.qualify_answers]
    exact List.map_congr_left fun p _ => (scope.qualify_answers p []).symm
  · intro p hp hown
    refine ⟨scope.importAt p.path, importAt_mem_after hp hown, scope.importAt_path p.path, ?_⟩
    rw [scope.qualify_answers p [], prefixOf_eq_importAt hown]

/-- `a` is imported under every kind of name, and `b` is merged. -/
def mingled : ImportScope where
  own := "p"
  imports := [⟨"a", some "_"⟩, ⟨"a", some "x"⟩, ⟨"b", some "."⟩, ⟨"a", none⟩, ⟨"a", some "."⟩]

/-- Questions about the imports of `mingled`, about the package at hand and about one that is
imported nowhere. -/
def questions : List PackageRef :=
  [⟨"b", "b"⟩, ⟨"a", "a"⟩, ⟨"p", "p"⟩, ⟨"c", "d"⟩, ⟨"a", "a"⟩]

/-- The alias `x` accounts for the answers about `a`. -/
theorem noted_accounts_mingled :
    PackageRef.mk "a" "a" ∈ questions ∧ "a" ≠ mingled.own ∧
    mingled.qualify.after questions [] = [⟨"b", some "."⟩, ⟨"a", some "x"⟩, ⟨"c", none⟩] ∧
    ∃ i ∈ mingled.qualify.after questions [], i.path = "a" ∧
      "x" = if i.isDot then "" else i.name.getD "a" := by
  have hmem : PackageRef.mk "a" "a" ∈ questions := by decide
  have hown : "a" ≠ mingled.own := by decide
  exact ⟨hmem, hown, by decide, (mingled.noted_accounts questions).2.2.2.2 _ hmem hown⟩

end ImportScope

/-! ## The file of a group -/

namespace Extract

open Directive (Group)

/-- The packages printed for the object `id`, in order. -/
def objectPackages (package : Package) (id : ObjectId) : List PackageRef :=
  match package.object? id with
  | some object => (writtenTypes package.types object.type).flatMap package.types.printedPackages
  | none => []

/-- The packages printed for the `objects` of a group, in order. -/
def groupPackages (package : Package) (objects : List ObjectId) : List PackageRef :=
  objects.flatMap (objectPackages package)

/-- The object of a number is extracted to `i`, whatever was noted before. -/
def ExtractedAs (package : Package) (scope : ImportScope) (id : ObjectId) (i : Mock.Interface) :
    Prop :=
  ∃ object, package.object? id = some object ∧
    ∀ used, (interface package object scope.qualify).run used =
      (.ok i, scope.qualify.after (objectPackages package id) used)

/-- The `objects` of a group are extracted one after the other, each as it would be alone, and
`scope.qualify` is led over the packages of all of them. -/
theorem groupInterfaces_each {package : Package} {scope : ImportScope} {objects : List ObjectId}
    {interfaces : List Mock.Interface} {used used₁ : UsedImports}
    (h : (groupInterfaces package scope objects).run used = (.ok interfaces, used₁)) :
    List.Forall₂ (ExtractedAs package scope) objects interfaces ∧
      used₁ = scope.qualify.after (groupPackages package objects) used := by
  rw [groupPackages, ← Qualifier.foldl_after]
  refine Outcome.run_mapM_ok (fun id s i s₁ hrun => ?_) h
  cases hobject : package.object? id with
  | none => rw [hobject] at hrun; cases hrun
  | some object =>
    rw [hobject] at hrun
    have hall := interface_run_of_ok scope.qualify_answers hrun
    have hpackages : objectPackages package id =
        (writtenTypes package.types object.type).flatMap package.types.printedPackages := by
      rw [objectPackages, hobject]
    rw [← hpackages] at hall
    refine ⟨⟨object, hobject, hall⟩, ?_⟩
    have hsame := hrun.symm.trans (hall s)
    exact (Prod.mk.inj hsame).2

theorem groupInterfaces_ok {package : Package} {scope : ImportScope} {objects : List ObjectId}
    {interfaces : List Mock.Interface} {used used₁ : UsedImports}
    (h : (groupInterfaces package scope objects).run used = (.ok interfaces, used₁)) :
    used₁ = scope.qualify.after (groupPackages package objects) used :=
  (groupInterfaces_each h).2

theorem groupInterfaces_cons {package : Package} {scope : ImportScope} {id : ObjectId}
    {rest : List ObjectId} {object : Object} {i : Mock.Interface} {is : List Mock.Interface}
    {used used₁ used₂ : UsedImports} (hobject : package.object? id = some object)
    (hrun : (interface package object scope.qualify).run used = (.ok i, used₁))
    (hrest : (groupInterfaces package scope rest).run used₁ = (.ok is, used₂)) :
    (groupInterfaces package scope (id :: rest)).run used = (.ok (i :: is), used₂) := by
  rw [groupInterfaces] at hrest ⊢
  rw [List.mapM_cons, Outcome.run_bind, hobject]
  simp only [hrun, Outcome.run_bind, hrest, Outcome.run_pure]

/-- The `imports` of a group are those of its `files`, all of which are there. -/
theorem groupImports_ok {package : Package} {files : List FileId} {imports : List Import}
    (h : groupImports package files = .ok imports) :
    ∃ lists, List.Forall₂
        (fun id l => ∃ file, package.file? id = some file ∧ file.imports = l) files lists ∧
      imports = lists.flatten := by
  obtain ⟨lists, hlists, h⟩ := Outcome.bind_ok h
  obtain rfl := Except.ok.inj h
  refine ⟨lists, (Outcome.mapM_ok hlists).imp fun id l hread => ?_, rfl⟩
  cases hfile : package.file? id with
  | none => rw [hfile] at hread; cases hread
  | some file =>
    rw [hfile] at hread
    exact ⟨file, rfl, Except.ok.inj hread⟩

theorem mem_groupImports_iff {package : Package} {files : List FileId} {imports : List Import}
    (h : groupImports package files = .ok imports) {i : Import} :
    i ∈ imports ↔ ∃ id ∈ files, ∃ file, package.file? id = some file ∧ i ∈ file.imports := by
  obtain ⟨lists, hlists, rfl⟩ := groupImports_ok h
  rw [List.mem_flatten]
  constructor
  · rintro ⟨l, hl, hi⟩
    obtain ⟨id, hid, file, hfile, rfl⟩ := Outcome.exists_of_forall₂ hlists.flip hl
    exact ⟨id, hid, file, hfile, hi⟩
  · rintro ⟨id, hid, file, hfile, hi⟩
    obtain ⟨l, hl, file', hfile', rfl⟩ := Outcome.exists_of_forall₂ hlists hid
    rw [hfile] at hfile'
    obtain rfl := Option.some.inj hfile'
    exact ⟨_, hl, hi⟩

/-- The steps that `assemble` went through if it succeeded. -/
theorem assemble_ok {o : Options} {packages : List Package} {group : Group} {file : Mock.File}
    (h : assemble o packages group = .ok file) :
    ∃ package imports aggregated, packages[group.package]? = some package ∧
      groupImports package group.files = .ok imports ∧
      Import.aggregate o imports = .ok aggregated ∧
      (groupInterfaces package ⟨package.path, aggregated⟩ group.objects).run [] =
        (.ok file.interfaces, file.imports) ∧
      file.package = package.name := by
  simp only [assemble] at h
  split at h
  case h_2 => cases h
  rename_i package hpackage
  obtain ⟨imports, himports, h⟩ := Outcome.bind_ok h
  obtain ⟨aggregated, haggregated, h⟩ := Outcome.bind_ok h
  have haggregated : Import.aggregate o imports = .ok aggregated := by
    cases hagg : Import.aggregate o imports with
    | error e => rw [hagg] at haggregated; cases haggregated
    | ok l => rw [hagg] at haggregated; cases haggregated; rfl
  split at h
  · cases h
  · rename_i interfaces used hrun
    cases h
    exact ⟨package, imports, aggregated, hpackage, himports, haggregated, hrun, rfl⟩

/-- `assemble` gives a file if the steps of `assemble_ok` can be taken. -/
theorem assemble_of_run {o : Options} {packages : List Package} {group : Group}
    {package : Package} {imports aggregated : List Import} {interfaces : List Mock.Interface}
    {used : UsedImports} (hpackage : packages[group.package]? = some package)
    (himports : groupImports package group.files = .ok imports)
    (haggregated : Import.aggregate o imports = .ok aggregated)
    (hrun : (groupInterfaces package ⟨package.path, aggregated⟩ group.objects).run [] =
      (.ok interfaces, used)) :
    assemble o packages group = .ok { package := package.name, imports := used, interfaces } := by
  rw [assemble, hpackage]
  simp only [himports, haggregated, Except.mapError, bind, Except.bind, hrun]

/-- `file.imports` are exactly those that its printed packages need: their paths are the printed
ones other than `package.path`, once each in the order of first mention. Each is the first import of
its path in `aggregated`, the list of the group's files, that is not blank, or a plain one if there
is none. -/
theorem assemble_imports_exact {o : Options} {packages : List Package} {group : Group}
    {file : Mock.File} (h : assemble o packages group = .ok file) :
    ∃ package imports aggregated, packages[group.package]? = some package ∧
      groupImports package group.files = .ok imports ∧
      Import.aggregate o imports = .ok aggregated ∧
      file.imports.map (·.path) =
        (((groupPackages package group.objects).map (·.path)).filter
          (· ≠ package.path)).eraseDups ∧
      ∀ i ∈ file.imports,
        i = (aggregated.find? fun j => j.path = i.path && !j.isBlank).getD { path := i.path } ∧
        i.isBlank = false ∧ i.path ≠ package.path := by
  obtain ⟨package, imports, aggregated, hpackage, himports, haggregated, hrun, -⟩ := assemble_ok h
  have hused := groupInterfaces_ok hrun
  rw [ImportScope.after_qualify] at hused
  refine ⟨package, imports, aggregated, hpackage, himports, haggregated, ?_, ?_⟩
  · rw [hused, List.map_map]
    simp [Function.comp_def]
  · intro i hi
    rw [hused, List.mem_map] at hi
    obtain ⟨path, hpath, rfl⟩ := hi
    rw [ImportScope.importAt_path]
    refine ⟨rfl, ImportScope.importAt_isBlank _ path, ?_⟩
    simpa using (List.mem_filter.1 (List.mem_eraseDups.1 hpath)).2

/-! ## A sample -/

/-- An interface with a method over two packages that both declare the name `x`. -/
def twins : Package where
  name := "p"
  path := "p"
  files := [{
    id := 0
    path := ⟨"p.go"⟩
    imports := [⟨"a/x", none⟩, ⟨"b/x.v3", none⟩]
    decls := [] }]
  objects := #[{ name := "I", kind := .typeName, type := 5, position := ⟨0, 1, 1⟩ }]
  scope := .empty
  types := ⟨#[
    .struct [],
    .named "T" (some ⟨"a/x", "x"⟩) [] [] 0,
    .named "T" (some ⟨"b/x.v3", "x"⟩) [] [] 0,
    .signature [⟨"", 1⟩, ⟨"", 2⟩] [] false,
    .interface [⟨"M", 3, ⟨0, 2, 1⟩⟩] [] false,
    .named "I" (some ⟨"p", "p"⟩) [] [] 4]⟩
  diagnostics := []

theorem valid_twins : twins.types.valid 5 = true :=
  TypeGraph.valid_of_closed [0, 1, 2, 3, 4, 5] rfl (by decide)

theorem explode_twins : twins.types.explode 4 = [4] :=
  TypeGraph.explode_of_within 1 rfl

theorem groupImports_twins :
    groupImports twins [0] = .ok [⟨"a/x", none⟩, ⟨"b/x.v3", none⟩] := rfl

theorem aggregate_twins :
    Import.aggregate { supportImports := [] } [⟨"a/x", none⟩, ⟨"b/x.v3", none⟩] =
      .ok [⟨"a/x", none⟩, ⟨"b/x.v3", none⟩] :=
  (Import.aggregate_of_sorted [⟨"a/x", none⟩, ⟨"b/x.v3", none⟩] (by decide +kernel)
    (by decide +kernel)).trans (by decide +kernel)

theorem assemble_twins :
    assemble { supportImports := [] } [twins] { package := 0, files := [0], objects := [0] } =
      .ok {
        package := "p"
        imports := [⟨"a/x", none⟩, ⟨"b/x.v3", none⟩]
        interfaces := [{
          name := "I"
          typeParams := []
          methods := [{
            name := "M"
            params := [{ name := "", type := "x.T" }, { name := "", type := "x.T" }]
            results := []
            origin := "interface\x7bM(a/x.T, b/x.v3.T)\x7d"
            position := ⟨0, 2, 1⟩ }] }] } :=
  @assemble_of_run _ _ _ twins _ _ _ _ rfl groupImports_twins aggregate_twins
    (groupInterfaces_cons rfl (interface_of_explode rfl rfl valid_twins explode_twins rfl rfl rfl
      (List.mergeSort_singleton _)) rfl)

/-- The two packages of `twins` are imported in the order in which they are printed. -/
theorem assemble_imports_exact_twins :
    ∃ imports aggregated, groupImports twins [0] = .ok imports ∧
      Import.aggregate { supportImports := [] } imports = .ok aggregated ∧
      ["a/x", "b/x.v3"] =
        (((groupPackages twins [0]).map (·.path)).filter (· ≠ "p")).eraseDups ∧
      ∀ i ∈ [Import.mk "a/x" none, ⟨"b/x.v3", none⟩],
        i = (aggregated.find? fun j => j.path = i.path && !j.isBlank).getD { path := i.path } ∧
        i.isBlank = false ∧ i.path ≠ "p" := by
  obtain ⟨package, imports, aggregated, hpackage, himports, haggregated, hpaths, hall⟩ :=
    assemble_imports_exact assemble_twins
  obtain rfl : twins = package := Option.some.inj hpackage
  exact ⟨imports, aggregated, himports, haggregated, hpaths, hall⟩

end Extract

end Understudy
