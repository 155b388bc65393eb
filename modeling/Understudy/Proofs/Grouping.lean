import Understudy.Directive.Scan
import Understudy.Proofs.PathTables

/-!
# Groups of declarations

A scan succeeds exactly if no path gets declarations of two packages. Then the group of a path holds
the declarations directed there, in order, and is listed under the spelling of the first.

* `Directive.Unmixed`: declarations directed to one path are of one package.
* `Directive.FirstMixed`: the first declaration that mixes packages, where a scan ends.
* `Directive.scan_of_unmixed`, `Directive.scan_of_mixed`: the outcome of a scan.
* `Directive.exists_key_iff`: the paths of the groups are those of the declarations.
-/

namespace Understudy.Directive

open Path.Table (gather itemsAt mem_gather ascending_gather)

/-- Declarations of `items` that are directed to the same `path` are of the same `package`. -/
def Unmixed (items : List Annotated) : Prop :=
  ∀ a ∈ items, ∀ b ∈ items, a.path.components = b.path.components → a.package = b.package

/-- The groups of the declarations `items`, whatever packages they are of. -/
def groups (items : List Annotated) : Path.Table Group :=
  gather Annotated.path Group.add items

theorem groups_append_singleton (items : List Annotated) (a : Annotated) :
    groups (items ++ [a]) = (groups items).alter a.path fun group? => Group.add group? a :=
  Path.Table.gather_append_singleton items a

theorem ascending_groups (items : List Annotated) : (groups items).Ascending :=
  ascending_gather _ _ items

theorem package_sum (first : Annotated) (rest : List Annotated) :
    (Path.Table.sum Group.add first rest).package = first.package := by
  induction rest using List.reverseRecOn with
  | nil => rfl
  | append_singleton rest a ih =>
    rw [Path.Table.sum_append_singleton]
    exact ih

/-- The package of a `group` is that of a declaration directed to its `path`. -/
theorem exists_of_mem_groups {items : List Annotated} {path : Path} {group : Group}
    (h : (path, group) ∈ groups items) :
    ∃ a ∈ items, a.path = path ∧ a.package = group.package := by
  obtain ⟨first, rest, hitems, he⟩ := mem_gather.1 h
  obtain ⟨hpath, hgroup⟩ := Prod.mk.inj he
  have hfirst : first ∈ itemsAt Annotated.path items path := hitems ▸ List.mem_cons_self
  refine ⟨first, (List.mem_filter.1 hfirst).1, hpath.symm, ?_⟩
  rw [hgroup, package_sum]

/-- Every declaration `a` of `items` has a group at its `path`. -/
theorem exists_group {items : List Annotated} {a : Annotated} (h : a ∈ items) :
    ∃ path group, (path, group) ∈ groups items ∧ path.components = a.path.components := by
  have hmem : a ∈ itemsAt Annotated.path items a.path :=
    List.mem_filter.2 ⟨h, decide_eq_true rfl⟩
  obtain ⟨first, rest, hitems⟩ := List.exists_cons_of_ne_nil (List.ne_nil_of_mem hmem)
  have hpath := Path.Table.components_of_itemsAt_eq_cons hitems
  refine ⟨first.path, Path.Table.sum Group.add first rest, mem_gather.2 ⟨first, rest, ?_, rfl⟩,
    hpath⟩
  rw [Path.Table.itemsAt_congr hpath, hitems]

theorem exists_key_iff {items : List Annotated} {cs : List Path.Component} :
    (∃ path group, (path, group) ∈ groups items ∧ path.components = cs) ↔
      ∃ a ∈ items, a.path.components = cs := by
  constructor
  · rintro ⟨path, group, hmem, rfl⟩
    obtain ⟨a, ha, rfl, -⟩ := exists_of_mem_groups hmem
    exact ⟨a, ha, rfl⟩
  · rintro ⟨a, ha, rfl⟩
    exact exists_group ha

/-! ## One declaration more -/

/-- The package of the group at `path`, which the declaration `a` joins. -/
theorem find?_groups {items : List Annotated} (hitems : Unmixed items) {a : Annotated}
    {path : Path} (ha : a ∈ items) (hpath : a.path.components = path.components) :
    ∃ group, (groups items).find? path = some group ∧ group.package = a.package := by
  obtain ⟨key, group, hmem, hkey⟩ := exists_group ha
  obtain ⟨b, hb, rfl, hpackage⟩ := exists_of_mem_groups hmem
  refine ⟨group, (Path.Table.find?_eq_some (ascending_groups items)).2
    ⟨b.path, hmem, hkey.trans hpath⟩, ?_⟩
  rw [← hpackage, hitems b hb a ha hkey]

theorem place_groups_of_same {items : List Annotated} {a : Annotated}
    (h : ∀ b ∈ items, b.path.components = a.path.components → b.package = a.package) :
    place (groups items) a = .ok (groups (items ++ [a])) := by
  have hall : ((groups items).find? a.path).all (·.package = a.package) = true := by
    cases hfind : (groups items).find? a.path with
    | none => rfl
    | some group =>
      obtain ⟨key, hmem, hkey⟩ := (Path.Table.find?_eq_some (ascending_groups items)).1 hfind
      obtain ⟨b, hb, rfl, hpackage⟩ := exists_of_mem_groups hmem
      simpa [← hpackage] using h b hb hkey
  rw [place, if_pos hall, groups_append_singleton]

theorem place_groups_of_other {items : List Annotated} (hitems : Unmixed items)
    {a b : Annotated} (hb : b ∈ items) (hpath : b.path.components = a.path.components)
    (hpackage : b.package ≠ a.package) :
    place (groups items) a = .error (.mixedPackages a.path) := by
  obtain ⟨group, hfind, hgroup⟩ := find?_groups hitems hb hpath
  rw [place, hfind, if_neg (by simpa [hgroup] using hpackage)]

theorem Unmixed.of_append {items rest : List Annotated} (h : Unmixed (items ++ rest)) :
    Unmixed items :=
  fun a ha b hb => h a (List.mem_append_left _ ha) b (List.mem_append_left _ hb)

/-- Only the last declaration `a` can mix packages if `items` is `Unmixed`. -/
theorem exists_other_of_mixed {items : List Annotated} (hitems : Unmixed items) {a : Annotated}
    (h : ¬ Unmixed (items ++ [a])) :
    ∃ b ∈ items, b.path.components = a.path.components ∧ b.package ≠ a.package := by
  by_contra! hnone
  refine h fun x hx y hy hpath => ?_
  rcases List.mem_append.1 hx with hxi | hxa <;> rcases List.mem_append.1 hy with hyi | hya
  · exact hitems x hxi y hyi hpath
  · obtain rfl := List.mem_singleton.1 hya
    exact hnone x hxi hpath
  · obtain rfl := List.mem_singleton.1 hxa
    exact (hnone y hyi hpath.symm).symm
  · rw [List.mem_singleton.1 hxa, List.mem_singleton.1 hya]

/-! ## All declarations -/

theorem foldlM_place_of_unmixed {items : List Annotated} (h : Unmixed items) :
    items.foldlM place [] = .ok (groups items) := by
  induction items using List.reverseRecOn with
  | nil => rfl
  | append_singleton items a ih =>
    simp only [List.foldlM_append, List.foldlM_cons, List.foldlM_nil, bind_pure]
    rw [ih h.of_append]
    exact place_groups_of_same fun b hb hpath =>
      h b (List.mem_append_left _ hb) a (List.mem_append_right _ List.mem_cons_self) hpath

/-- `a` is the first declaration of `items` that is directed to the path of an earlier one from
another package. -/
def FirstMixed (items : List Annotated) (a : Annotated) : Prop :=
  ∃ before after, items = before ++ a :: after ∧ Unmixed before ∧
    ∃ b ∈ before, b.path.components = a.path.components ∧ b.package ≠ a.package

theorem exists_firstMixed {items : List Annotated} (h : ¬ Unmixed items) :
    ∃ a, FirstMixed items a := by
  induction items using List.reverseRecOn with
  | nil => exact absurd (fun a ha => nomatch ha) h
  | append_singleton items a ih =>
    by_cases hitems : Unmixed items
    · exact ⟨a, items, [], rfl, hitems, exists_other_of_mixed hitems h⟩
    · obtain ⟨c, before, after, rfl, hbefore, hother⟩ := ih hitems
      exact ⟨c, before, after ++ [a], by simp, hbefore, hother⟩

/-- The walk of `place` over `items` ends at the declaration `a` that is `FirstMixed`. -/
theorem FirstMixed.foldlM_place {items : List Annotated} {a : Annotated}
    (h : FirstMixed items a) : items.foldlM place [] = .error (.mixedPackages a.path) := by
  obtain ⟨before, after, rfl, hbefore, b, hb, hpath, hpackage⟩ := h
  rw [List.foldlM_append, foldlM_place_of_unmixed hbefore]
  show (place (groups before) a >>= fun t => after.foldlM place t) = _
  rw [place_groups_of_other hbefore hb hpath hpackage]
  rfl

theorem scan_of_unmixed {o : Options} {packages : List Package}
    (h : Unmixed (annotated o packages)) :
    scan o packages = .ok (groups (annotated o packages)) :=
  foldlM_place_of_unmixed h

theorem scan_of_mixed {o : Options} {packages : List Package}
    (h : ¬ Unmixed (annotated o packages)) :
    ∃ path, scan o packages = .error (.mixedPackages path) := by
  obtain ⟨a, ha⟩ := exists_firstMixed h
  exact ⟨a.path, ha.foldlM_place⟩

theorem scan_ok {o : Options} {packages : List Package} {t : Path.Table Group}
    (h : scan o packages = .ok t) :
    Unmixed (annotated o packages) ∧ t = groups (annotated o packages) := by
  by_cases hunmixed : Unmixed (annotated o packages)
  · rw [scan_of_unmixed hunmixed] at h
    cases h
    exact ⟨hunmixed, rfl⟩
  · obtain ⟨path, herror⟩ := scan_of_mixed hunmixed
    rw [herror] at h
    cases h

end Understudy.Directive
