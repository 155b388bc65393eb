import Understudy.Proofs.Aggregation
import Understudy.Proofs.UsedImports

/-!
# Prefixes of different packages

The import list gives different names to its imports, and a plain import counts as going by the last
segment of its path. But what such a package declares is written behind the package's own name. So
two prefixes can coincide, though only where that name is not the last segment of the path.

* `Extract.DirectlyImported`: the files of a group import the package themselves.
* `Extract.DistinctPrefixes`: different packages stand behind different prefixes.
* `ImportScope.Misnamed`: a plain import whose package declares another name than its path ends in.
* `Extract.misnamed_of_prefixOf_eq`: of two packages behind one prefix one is misnamed.
* `Extract.assemble_distinctPrefixes_iff`: the prefixes of a file are distinct exactly if no
  misnamed package declares the prefix of another.
-/

namespace Understudy

namespace ImportScope

/-- `p` is imported without an alias, and its path does not end in the name that it declares. -/
def Misnamed (scope : ImportScope) (p : PackageRef) : Prop :=
  p.path ≠ scope.own ∧ (scope.importOf p).name = none ∧ p.name ≠ Name.lastSegment p.path

theorem prefixOf_of_ne_empty {scope : ImportScope} {p : PackageRef} (h : scope.prefixOf p ≠ "") :
    p.path ≠ scope.own ∧ (scope.importOf p).isDot = false ∧
      scope.prefixOf p = (scope.importOf p).name.getD p.name := by
  unfold prefixOf at *
  by_cases hown : p.path = scope.own
  · simp [hown] at h
  · cases hdot : (scope.importOf p).isDot <;> simp_all

theorem Misnamed.prefixOf_eq {scope : ImportScope} {p : PackageRef} (h : scope.Misnamed p) :
    scope.prefixOf p = p.name := by
  obtain ⟨hown, hplain, -⟩ := h
  simp [prefixOf, hown, hplain, Import.isDot]

/-- Unless `p` is `Misnamed`, its prefix is the name that its import claims. -/
theorem prefixOf_eq_localName {scope : ImportScope} {p : PackageRef} (h : scope.prefixOf p ≠ "")
    (hnamed : ¬ scope.Misnamed p) : scope.prefixOf p = (scope.importOf p).localName := by
  obtain ⟨hown, -, heq⟩ := prefixOf_of_ne_empty h
  rw [heq, Import.localName, importOf_eq, importAt_path]
  cases hname : (scope.importAt p.path).name with
  | some name => rfl
  | none =>
    by_contra hne
    exact hnamed ⟨hown, hname, hne⟩

end ImportScope

namespace Extract

open Directive (Group)

/-! ## Packages that a group imports itself -/

/-- One of the `files` imports `path` under some name, or it is imported for support. -/
def DirectlyImported (o : Options) (package : Package) (files : List FileId) (path : String) :
    Prop :=
  path ∈ o.supportImports ∨
    ∃ id ∈ files, ∃ file, package.file? id = some file ∧
      ∃ i ∈ file.imports, i.path = path ∧ i.isBlank = false

/-- The import of a package `p` that a group imports itself is in `scope.imports`. -/
theorem importOf_mem {o : Options} {package : Package} {files : List FileId}
    {imports : List Import} {scope : ImportScope}
    (himports : groupImports package files = .ok imports)
    (haggregated : Import.aggregate o imports = .ok scope.imports) {p : PackageRef}
    (h : DirectlyImported o package files p.path) : scope.importOf p ∈ scope.imports := by
  obtain ⟨i, hi, hpath, hblank⟩ : ∃ i ∈ Import.merged o imports,
      i.path = p.path ∧ i.isBlank = false := by
    rcases h with hsupport | ⟨id, hid, file, hfile, i, hi, hpath, hblank⟩
    · exact ⟨_, Import.mem_merged.2 (.inr ⟨_, hsupport, rfl⟩), rfl, rfl⟩
    · have hlisted : i ∈ imports := (mem_groupImports_iff himports).2 ⟨id, hid, file, hfile, hi⟩
      exact ⟨i, Import.mem_merged.2 (.inl hlisted), hpath, hblank⟩
  obtain ⟨j, hj, hrenamed⟩ := Import.exists_renamed haggregated hi
  rw [ImportScope.importOf_eq]
  rcases scope.importAt_cases p.path with ⟨hmem, -⟩ | ⟨hnone, -⟩
  · exact hmem
  · have hij := hrenamed.isBlank (hnone j hj (hrenamed.path.trans hpath))
    rw [hblank] at hij
    cases hij

/-! ## When prefixes differ -/

/-- No two packages with different paths that the files of `group` import are printed behind one
prefix. -/
def DistinctPrefixes (o : Options) (package : Package) (group : Group) (scope : ImportScope) :
    Prop :=
  ∀ p ∈ groupPackages package group.objects, ∀ q ∈ groupPackages package group.objects,
    p.path ≠ q.path → DirectlyImported o package group.files p.path →
      DirectlyImported o package group.files q.path →
        scope.prefixOf p ≠ "" → scope.prefixOf p ≠ scope.prefixOf q

/-- Of two imported packages `p` and `q` behind one prefix one is `Misnamed`. -/
theorem misnamed_of_prefixOf_eq {o : Options} {imports : List Import} {scope : ImportScope}
    (haggregated : Import.aggregate o imports = .ok scope.imports) {p q : PackageRef}
    (hne : p.path ≠ q.path) (hp : scope.importOf p ∈ scope.imports)
    (hq : scope.importOf q ∈ scope.imports) (hwritten : scope.prefixOf p ≠ "")
    (heq : scope.prefixOf p = scope.prefixOf q) : scope.Misnamed p ∨ scope.Misnamed q := by
  by_contra hnamed
  rw [not_or] at hnamed
  have hwritten' := heq ▸ hwritten
  have hlocal : (scope.importOf p).localName = (scope.importOf q).localName := by
    rw [← ImportScope.prefixOf_eq_localName hwritten hnamed.1, heq,
      ImportScope.prefixOf_eq_localName hwritten' hnamed.2]
  -- imports that claim one name are one import, and so have one path
  have hsame := Import.eq_of_localName_eq haggregated hp hq
    (scope.importAt_isBlank _) (ImportScope.prefixOf_of_ne_empty hwritten).2.1
    (scope.importAt_isBlank _) (ImportScope.prefixOf_of_ne_empty hwritten').2.1 hlocal
  have hpath := congrArg Import.path hsame
  rw [ImportScope.importOf_eq, ImportScope.importOf_eq, ImportScope.importAt_path,
    ImportScope.importAt_path] at hpath
  exact hne hpath

/-- A `file` has `DistinctPrefixes` exactly if no `Misnamed` package has, as the name that it
declares, the `prefixOf` another package. -/
theorem assemble_distinctPrefixes_iff {o : Options} {packages : List Package} {group : Group}
    {file : Mock.File} (h : assemble o packages group = .ok file) :
    ∃ package imports aggregated, packages[group.package]? = some package ∧
      groupImports package group.files = .ok imports ∧
      Import.aggregate o imports = .ok aggregated ∧
      (groupInterfaces package ⟨package.path, aggregated⟩ group.objects).run [] =
        (.ok file.interfaces, file.imports) ∧
      (DistinctPrefixes o package group ⟨package.path, aggregated⟩ ↔
        ∀ p ∈ groupPackages package group.objects, ∀ q ∈ groupPackages package group.objects,
          p.path ≠ q.path → DirectlyImported o package group.files p.path →
            DirectlyImported o package group.files q.path →
              (ImportScope.mk package.path aggregated).Misnamed p → p.name ≠ "" →
                p.name ≠ (ImportScope.mk package.path aggregated).prefixOf q) := by
  obtain ⟨package, imports, aggregated, hpackage, himports, haggregated, hrun, -⟩ := assemble_ok h
  refine ⟨package, imports, aggregated, hpackage, himports, haggregated, hrun, ?_, ?_⟩
  · intro hdistinct p hp q hq hne hdirect hdirect' hmis hname
    have := hdistinct p hp q hq hne hdirect hdirect'
    rw [hmis.prefixOf_eq] at this
    exact this hname
  · intro hmis p hp q hq hne hdirect hdirect' hwritten heq
    rcases misnamed_of_prefixOf_eq haggregated hne (importOf_mem himports haggregated hdirect)
      (importOf_mem himports haggregated hdirect') hwritten heq with hm | hm
    · refine hmis p hp q hq hne hdirect hdirect' hm ?_ ?_
      · exact hm.prefixOf_eq ▸ hwritten
      · exact hm.prefixOf_eq.symm.trans heq
    · refine hmis q hq p hp hne.symm hdirect' hdirect hm ?_ ?_
      · exact hm.prefixOf_eq ▸ heq ▸ hwritten
      · exact hm.prefixOf_eq.symm.trans heq.symm

theorem writtenTypes_twins : writtenTypes twins.types 5 = [1, 2] := by
  have hid : twins.types.interface? 5 = some 4 := rfl
  simp only [writtenTypes, hid, explode_twins]
  rfl

theorem groupPackages_twins : groupPackages twins [0] = [⟨"a/x", "x"⟩, ⟨"b/x.v3", "x"⟩] := by
  show (writtenTypes twins.types 5).flatMap twins.types.printedPackages ++ [] = _
  rw [writtenTypes_twins]
  rfl

/-- In `twins` the second package is misnamed, and declares what is the prefix of the first. -/
theorem assemble_distinctPrefixes_iff_twins :
    DistinctPrefixes { supportImports := [] } twins { package := 0, files := [0], objects := [0] }
        ⟨"p", [⟨"a/x", none⟩, ⟨"b/x.v3", none⟩]⟩ ↔
      ∀ p ∈ groupPackages twins [0], ∀ q ∈ groupPackages twins [0],
        p.path ≠ q.path → DirectlyImported { supportImports := [] } twins [0] p.path →
          DirectlyImported { supportImports := [] } twins [0] q.path →
            (ImportScope.mk "p" [⟨"a/x", none⟩, ⟨"b/x.v3", none⟩]).Misnamed p → p.name ≠ "" →
              p.name ≠ (ImportScope.mk "p" [⟨"a/x", none⟩, ⟨"b/x.v3", none⟩]).prefixOf q := by
  obtain ⟨package, imports, aggregated, hpackage, himports, haggregated, -, hiff⟩ :=
    assemble_distinctPrefixes_iff assemble_twins
  obtain rfl : twins = package := Option.some.inj hpackage
  obtain rfl := Except.ok.inj (himports.symm.trans groupImports_twins)
  obtain rfl := Except.ok.inj (haggregated.symm.trans aggregate_twins)
  exact hiff

/-- Two packages that `twins` imports itself, each under one declared name, are printed behind the
same prefix. -/
theorem twins_prefixes_coincide :
    (∃ file, assemble { supportImports := [] } [twins]
      { package := 0, files := [0], objects := [0] } = .ok file) ∧
    groupImports twins [0] = .ok [⟨"a/x", none⟩, ⟨"b/x.v3", none⟩] ∧
    Import.aggregate { supportImports := [] } [⟨"a/x", none⟩, ⟨"b/x.v3", none⟩] =
      .ok [⟨"a/x", none⟩, ⟨"b/x.v3", none⟩] ∧
    (∀ p ∈ groupPackages twins [0], ∀ q ∈ groupPackages twins [0],
      p.path = q.path → p.name = q.name) ∧
    ¬ DistinctPrefixes { supportImports := [] } twins
      { package := 0, files := [0], objects := [0] }
      ⟨"p", [⟨"a/x", none⟩, ⟨"b/x.v3", none⟩]⟩ := by
  refine ⟨⟨_, assemble_twins⟩, groupImports_twins, aggregate_twins, ?_, ?_⟩
  · rw [groupPackages_twins]
    decide
  · intro hdistinct
    have hp : PackageRef.mk "a/x" "x" ∈ groupPackages twins [0] := by simp [groupPackages_twins]
    have hq : PackageRef.mk "b/x.v3" "x" ∈ groupPackages twins [0] := by simp [groupPackages_twins]
    have hdirect : ∀ i ∈ [Import.mk "a/x" none, ⟨"b/x.v3", none⟩],
        DirectlyImported { supportImports := [] } twins [0] i.path := by
      intro i hi
      refine .inr ⟨0, by simp, _, rfl, i, hi, rfl, ?_⟩
      revert i
      decide
    exact hdistinct _ hp _ hq (by decide) (hdirect ⟨"a/x", none⟩ (by decide))
      (hdirect ⟨"b/x.v3", none⟩ (by decide)) (by decide) (by decide)

end Extract

end Understudy
