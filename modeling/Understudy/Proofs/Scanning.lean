import Mathlib.Data.List.Forall2
import Understudy.Proofs.OutputPaths

/-!
# What a scan finds

A scan goes through packages, files and declarations in order. It takes every declaration that has a
directive above it and an object, and puts it to the others of its path. Nothing is lost on the way:
a group holds exactly the declarations directed to its path, each of them once and in order.

* `Directive.declarations`: all declarations, in the order in which a scan meets them.
* `Directive.DirectedAs`: what the comment lines and the names of a declaration say.
* `Directive.annotated_directedAs`: what a scan takes are the declarations with a directive.
* `Directive.Grouped`: the groups of a list of declarations.
* `Directive.scan_groups_declarations`: the outcome of a scan.
-/

namespace Understudy.Directive

open Path.Table (itemsAt sum mem_gather)

/-! ## The declarations of all packages -/

/-- The declaration `decl` in its source `file`. -/
structure Located where
  /-- The place of its package. -/
  package : Nat
  file : SourceFile
  decl : Decl

/-- All declarations of `packages`, package by package and file by file. -/
def declarations (packages : List Package) : List Located :=
  packages.zipIdx.flatMap fun p => p.1.files.flatMap fun file =>
    file.decls.map fun decl => { package := p.2, file, decl }

/-- A comment line of `d` starts with the marker, and a name has an object. -/
def Located.isAnnotated (o : Options) (d : Located) : Bool :=
  d.decl.doc.any (fun line => o.marker.toList.isPrefixOf line.toList) &&
    d.decl.specs.any (·.object.isSome)

/-- `a` is what the first line of `d` with the marker says, with blanks around it left out, and the
first name that has an object. -/
structure DirectedAs (o : Options) (d : Located) (a : Annotated) : Prop where
  package_eq : a.package = d.package
  file_eq : a.file = d.file.id
  path_eq : ∃ before line after argument, d.decl.doc = before ++ line :: after ∧
    (∀ other ∈ before, ¬ o.marker.toList <+: other.toList) ∧
    line.toList = o.marker.toList ++ argument ∧
    a.path = outputPath o d.file.path (String.ofList (Text.trimBlank argument))
  object_eq : ∃ before spec after, d.decl.specs = before ++ spec :: after ∧
    (∀ other ∈ before, other.object = none) ∧ spec.object = some a.object

theorem argument?_eq_none {marker line : String} :
    argument? marker line = none ↔ ¬ marker.toList <+: line.toList := by
  simp [argument?]

theorem argument?_eq_some {marker line argument : String} :
    argument? marker line = some argument ↔
      ∃ rest, line.toList = marker.toList ++ rest ∧
        argument = String.ofList (Text.trimBlank rest) := by
  unfold argument?
  constructor
  · intro h
    split at h
    · rename_i hmarked
      obtain ⟨rest, hrest⟩ := List.isPrefixOf_iff_prefix.1 hmarked
      obtain rfl := Option.some.inj h
      exact ⟨rest, hrest.symm, by rw [← hrest, List.drop_left]⟩
    · cases h
  · rintro ⟨rest, hline, rfl⟩
    have hmarked : marker.toList.isPrefixOf line.toList = true :=
      List.isPrefixOf_iff_prefix.2 ⟨rest, hline.symm⟩
    rw [if_pos hmarked, hline, List.drop_left]

theorem isSome_argument? (marker line : String) :
    (argument? marker line).isSome = marker.toList.isPrefixOf line.toList := by
  unfold argument?
  cases marker.toList.isPrefixOf line.toList <;> rfl

/-- What a scan takes of the declaration `d`. -/
def Located.annotated? (o : Options) (d : Located) : Option Annotated :=
  (target? o d.file.path d.decl).map fun target =>
    { package := d.package, file := d.file.id, path := target.1, object := target.2 }

theorem annotated_eq_filterMap (o : Options) (packages : List Package) :
    annotated o packages = (declarations packages).filterMap (Located.annotated? o) := by
  simp only [declarations, List.filterMap_flatMap, List.filterMap_map]
  rfl

theorem isAnnotated_eq (o : Options) (d : Located) :
    d.isAnnotated o = (d.annotated? o).isSome := by
  have hdoc : d.decl.doc.any (fun line => o.marker.toList.isPrefixOf line.toList) =
      (d.decl.doc.findSome? (argument? o.marker)).isSome := by
    simp only [← isSome_argument?, List.isSome_findSome?]
  have hspecs : d.decl.specs.any (·.object.isSome) =
      (d.decl.specs.findSome? (·.object)).isSome := by
    rw [List.isSome_findSome?]
  rw [Located.isAnnotated, hdoc, hspecs, Located.annotated?, Option.isSome_map, target?]
  cases d.decl.doc.findSome? (argument? o.marker) with
  | none => rfl
  | some argument => cases d.decl.specs.findSome? (·.object) <;> rfl

theorem directedAs_of_annotated? {o : Options} {d : Located} {a : Annotated}
    (h : d.annotated? o = some a) : DirectedAs o d a := by
  obtain ⟨⟨path, object⟩, htarget, rfl⟩ := Option.map_eq_some_iff.1 h
  obtain ⟨argument, hargument, hobject, rfl⟩ := target?_eq_some.1 htarget
  obtain ⟨before, line, after, hdoc, hline, hbefore⟩ := List.findSome?_eq_some_iff.1 hargument
  obtain ⟨rest, hrest, rfl⟩ := argument?_eq_some.1 hline
  obtain ⟨others, spec, specs, hspecs, hspec, hothers⟩ := List.findSome?_eq_some_iff.1 hobject
  exact {
    package_eq := rfl
    file_eq := rfl
    path_eq := ⟨before, line, after, rest, hdoc, fun other hother =>
      argument?_eq_none.1 (hbefore other hother), hrest, rfl⟩
    object_eq := ⟨others, spec, specs, hspecs, hothers, hspec⟩ }

/-- The items that `f` takes of `l`, beside those of which something is taken. -/
theorem forall₂_filter_filterMap {α β : Type} {f : α → Option β} {p : α → Bool} {R : α → β → Prop}
    (hp : ∀ a, p a = (f a).isSome) (hR : ∀ a b, f a = some b → R a b) (l : List α) :
    List.Forall₂ R (l.filter p) (l.filterMap f) := by
  induction l with
  | nil => exact .nil
  | cons a l ih =>
    cases hfa : f a with
    | none =>
      rw [List.filterMap_cons_none hfa, List.filter_cons_of_neg (by simp [hp, hfa])]
      exact ih
    | some b =>
      rw [List.filterMap_cons_some hfa, List.filter_cons_of_pos (by simp [hp, hfa])]
      exact .cons (hR a b hfa) ih

/-- `annotated o packages` takes the declarations that have a directive and an object, each of them
as it says. -/
theorem annotated_directedAs (o : Options) (packages : List Package) :
    List.Forall₂ (DirectedAs o) ((declarations packages).filter (·.isAnnotated o))
      (annotated o packages) := by
  rw [annotated_eq_filterMap]
  exact forall₂_filter_filterMap (isAnnotated_eq o) (fun _ _ => directedAs_of_annotated?) _

/-! ## Groups -/

theorem mem_insertFile {id other : FileId} {files : List FileId} :
    other ∈ insertFile id files ↔ other = id ∨ other ∈ files := by
  induction files with
  | nil => simp [insertFile]
  | cons f rest ih =>
    rw [insertFile]
    split
    · exact List.mem_cons
    split
    · rw [List.mem_cons, ih, List.mem_cons]
      tauto
    · rename_i hlt hgt
      obtain rfl : id = f := UInt32.le_antisymm (UInt32.not_lt.1 hgt) (UInt32.not_lt.1 hlt)
      simp

theorem pairwise_insertFile {files : List FileId} (h : files.Pairwise (· < ·)) (id : FileId) :
    (insertFile id files).Pairwise (· < ·) := by
  induction files with
  | nil => exact List.pairwise_singleton _ _
  | cons f rest ih =>
    obtain ⟨hfirst, hrest⟩ := List.pairwise_cons.1 h
    rw [insertFile]
    split
    · rename_i hlt
      refine List.pairwise_cons.2 ⟨fun other hother => ?_, h⟩
      rcases List.mem_cons.1 hother with rfl | hother
      · exact hlt
      · exact UInt32.lt_trans hlt (hfirst other hother)
    split
    · rename_i hgt
      refine List.pairwise_cons.2 ⟨fun other hother => ?_, ih hrest⟩
      rcases mem_insertFile.1 hother with rfl | hother
      · exact hgt
      · exact hfirst other hother
    · exact h

theorem objects_sum (first : Annotated) (rest : List Annotated) :
    (sum Group.add first rest).objects = (first :: rest).map (·.object) := by
  induction rest using List.reverseRecOn with
  | nil => rfl
  | append_singleton rest a ih =>
    rw [Path.Table.sum_append_singleton, ← List.cons_append, List.map_append, ← ih]
    rfl

theorem mem_files_sum {first : Annotated} {rest : List Annotated} {id : FileId} :
    id ∈ (sum Group.add first rest).files ↔ ∃ a ∈ first :: rest, a.file = id := by
  induction rest using List.reverseRecOn with
  | nil => simp [sum, Group.add, insertFile, eq_comm]
  | append_singleton rest a ih =>
    rw [Path.Table.sum_append_singleton]
    show id ∈ insertFile a.file (sum Group.add first rest).files ↔ _
    rw [mem_insertFile, ih]
    simp only [List.mem_cons, List.mem_append, List.not_mem_nil]
    grind

theorem pairwise_files_sum (first : Annotated) (rest : List Annotated) :
    (sum Group.add first rest).files.Pairwise (· < ·) := by
  induction rest using List.reverseRecOn with
  | nil => exact List.pairwise_singleton _ _
  | append_singleton rest a ih =>
    rw [Path.Table.sum_append_singleton]
    exact pairwise_insertFile ih a.file

/-- `t` are the groups of `items`: one for each path, under its first spelling, with all that is
directed there. -/
structure Grouped (items : List Annotated) (t : Path.Table Group) : Prop where
  ascending : t.Ascending
  keys : ∀ cs, (∃ e ∈ t, e.1.components = cs) ↔ ∃ a ∈ items, a.path.components = cs
  spelling : ∀ e ∈ t, (itemsAt Annotated.path items e.1).head?.map (·.path) = some e.1
  package : ∀ e ∈ t, ∀ a ∈ itemsAt Annotated.path items e.1, a.package = e.2.package
  files : ∀ e ∈ t, e.2.files.Pairwise (· < ·) ∧
    ∀ id, id ∈ e.2.files ↔ ∃ a ∈ itemsAt Annotated.path items e.1, a.file = id
  objects : ∀ e ∈ t, e.2.objects = (itemsAt Annotated.path items e.1).map (·.object)

theorem Unmixed.grouped {items : List Annotated} (h : Unmixed items) :
    Grouped items (groups items) where
  ascending := ascending_groups items
  keys cs := by
    rw [← exists_key_iff]
    constructor
    · rintro ⟨e, he, hcs⟩
      exact ⟨e.1, e.2, he, hcs⟩
    · rintro ⟨path, group, hmem, hcs⟩
      exact ⟨(path, group), hmem, hcs⟩
  spelling e he := by
    obtain ⟨first, rest, hitems, rfl⟩ := mem_gather.1 he
    rw [hitems]
    rfl
  package e he a ha := by
    obtain ⟨b, hb, hpath, hpackage⟩ := exists_of_mem_groups he
    obtain ⟨ha, hcomponents⟩ := List.mem_filter.1 ha
    rw [← hpackage]
    exact h a ha b hb ((of_decide_eq_true hcomponents).trans (by rw [hpath]))
  files e he := by
    obtain ⟨first, rest, hitems, he⟩ := mem_gather.1 he
    rw [hitems, he]
    exact ⟨pairwise_files_sum first rest, fun id => mem_files_sum⟩
  objects e he := by
    obtain ⟨first, rest, hitems, he⟩ := mem_gather.1 he
    rw [hitems, he]
    exact objects_sum first rest

/-! ## The outcome -/

/-- `scan` succeeds exactly if the declarations that have a directive and an object, `items`, are
`Unmixed`: no path gets declarations of two packages. Then the groups are those of `items`.
Otherwise it names the path of the first that is directed to where an earlier one of another package
is. -/
theorem scan_groups_declarations (o : Options) (packages : List Package) :
    ∃ items, List.Forall₂ (DirectedAs o) ((declarations packages).filter (·.isAnnotated o)) items ∧
      ((∃ t, scan o packages = .ok t) ↔ Unmixed items) ∧
      (∀ t, scan o packages = .ok t → Grouped items t) ∧
      ∀ error, scan o packages = .error error ↔
        ∃ a, FirstMixed items a ∧ error = .mixedPackages a.path := by
  refine ⟨annotated o packages, annotated_directedAs o packages, ⟨?_, ?_⟩, ?_, ?_⟩
  · rintro ⟨t, ht⟩
    exact (scan_ok ht).1
  · intro hunmixed
    exact ⟨_, scan_of_unmixed hunmixed⟩
  · intro t ht
    obtain ⟨hunmixed, rfl⟩ := scan_ok ht
    exact hunmixed.grouped
  intro error
  constructor
  · intro herror
    have hmixed : ¬ Unmixed (annotated o packages) := by
      intro hunmixed
      rw [scan_of_unmixed hunmixed] at herror
      cases herror
    obtain ⟨a, ha⟩ := exists_firstMixed hmixed
    rw [scan, ha.foldlM_place] at herror
    cases herror
    exact ⟨a, ha, rfl⟩
  · rintro ⟨a, ha, rfl⟩
    exact ha.foldlM_place

end Understudy.Directive
