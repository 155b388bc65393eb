import Understudy.Proofs.Crowding
import Understudy.Proofs.ImportSets

/-!
# Imports that keep their names

Settling renames an import exactly if its name is claimed before it in the list. A name without a
number is not counted up to, so for such a name the list as it was before settling tells.

* `Import.Displaced`: an import that comes before the plain one of a path claims the last segment.
* `Import.find?_aggregate`: a path that is only imported plainly keeps its name unless displaced.
-/

namespace Understudy

namespace Import

open Name (numeral numbered stem lastSegment)

/-- Another import comes before the plain one of `path` and claims `lastSegment path`. -/
def Displaced (o : Options) (imports : List Import) (path : String) : Prop :=
  ∃ i ∈ merged o imports, i.path ≠ path ∧ i.claim? = some (lastSegment path) ∧
    Precedes o i ⟨path, none⟩

/-- The part `before` the plain import of `path` claims `lastSegment path` exactly if the import is
`Displaced`. -/
theorem mem_claims_before_iff {o : Options} {imports before after : List Import} {path : String}
    (hmerged : merged o imports = before ++ ⟨path, none⟩ :: after)
    (hbefore : ∀ i ∈ before, i.path ≠ path) :
    lastSegment path ∈ before.filterMap claim? ↔ Displaced o imports path := by
  have hsorted := pairwise_merged o imports
  rw [hmerged, List.pairwise_append, List.pairwise_cons] at hsorted
  obtain ⟨-, ⟨hafter, -⟩, hcross⟩ := hsorted
  rw [List.mem_filterMap]
  constructor
  · rintro ⟨i, hi, hclaim⟩
    refine ⟨i, ?_, hbefore i hi, hclaim, hcross i hi _ List.mem_cons_self⟩
    rw [hmerged]
    exact List.mem_append_left _ hi
  · rintro ⟨i, hi, hpath, hclaim, hprecedes⟩
    rw [hmerged, List.mem_append, List.mem_cons] at hi
    rcases hi with hi | rfl | hi
    · exact ⟨i, hi, hclaim⟩
    · exact absurd rfl hpath
    · exact absurd (congrArg Import.path (hprecedes.antisymm (hafter i hi))) hpath

/-- `merged o imports` is cut at the first import of a `path` that is imported only plainly. -/
theorem exists_merged_eq {o : Options} {imports : List Import} {path : String}
    (hplain : ∀ i ∈ merged o imports, i.path = path → i.name = none)
    (hmem : ⟨path, none⟩ ∈ merged o imports) :
    ∃ before after, merged o imports = before ++ ⟨path, none⟩ :: after ∧
      ∀ i ∈ before, i.path ≠ path := by
  obtain ⟨before, after, hmerged, hnot⟩ := List.eq_append_cons_of_mem hmem
  refine ⟨before, after, hmerged, ?_⟩
  rintro ⟨path', name⟩ hi hpath
  obtain rfl : path' = path := hpath
  obtain rfl : name = none := hplain _ (hmerged ▸ List.mem_append_left _ hi) rfl
  exact hnot hi

/-- The first import of `path` is found as it was settled. -/
theorem find?_settleAll {before after result : List Import} {path : String}
    (h : settleAll [] (before ++ ⟨path, none⟩ :: after) = .ok result)
    (hbefore : ∀ i ∈ before, i.path ≠ path) :
    ∃ r j, settleAll [] before = .ok r ∧
      settle ((r.filterMap claim?).reverse ++ []) ⟨path, none⟩ = .ok j ∧
      result.find? (fun i => i.path = path && !i.isBlank) = some j := by
  obtain ⟨r, r', hr, hr', rfl⟩ := settleAll_append h
  obtain ⟨j, hj, hr'⟩ := Outcome.bind_ok hr'
  obtain ⟨rest, -, hr'⟩ := Outcome.bind_ok hr'
  obtain rfl := Except.ok.inj hr'
  refine ⟨r, j, hr, hj, ?_⟩
  have hskip : r.find? (fun i => i.path = path && !i.isBlank) = none := by
    rw [List.find?_eq_none]
    intro x hx
    obtain ⟨i, hi, hrenamed⟩ := Outcome.exists_of_forall₂ (settleAll_ok hr).1.flip hx
    have hne : x.path ≠ path := hrenamed.path ▸ hbefore i hi
    simp [hne]
  obtain ⟨hrenamed, -⟩ := settle_ok hj
  have hblank : j.isBlank = false := by
    rw [Bool.eq_false_iff]
    exact fun hblank => absurd (hrenamed.isBlank hblank) (by simp [isBlank])
  have hpath : j.path = path := hrenamed.path
  simp [List.find?_append, hskip, hpath, hblank]

/-- The import under which a `path` is found that is imported only plainly: without an alias if it
is not `Displaced`, else with one that was counted up. -/
theorem find?_aggregate {o : Options} {imports result : List Import}
    (h : aggregate o imports = .ok result) {path : String}
    (hname : numeral (lastSegment path).toList = [])
    (hplain : ∀ i ∈ merged o imports, i.path = path → i.name = none)
    (hmem : ⟨path, none⟩ ∈ merged o imports) :
    ∃ j, result.find? (fun i => i.path = path && !i.isBlank) = some j ∧
      (¬ Displaced o imports path → j.name = none) ∧
      (Displaced o imports path →
        ∃ k, j.name = some (numbered (stem (lastSegment path).toList) k)) := by
  obtain ⟨before, after, hmerged, hbefore⟩ := exists_merged_eq hplain hmem
  rw [aggregate, hmerged] at h
  obtain ⟨r, j, hr, hj, hfind⟩ := find?_settleAll h hbefore
  -- a name is taken here exactly if the part before the import claimed it from the start
  have htaken : lastSegment path ∈ (r.filterMap claim?).reverse ++ [] ↔
      Displaced o imports path := by
    rw [← mem_claims_before_iff hmerged hbefore, List.append_nil, List.mem_reverse,
      mem_claims_iff_crowded hr, Name.crowded_iff_mem hname]
  refine ⟨j, hfind, ?_⟩
  rw [← htaken]
  rcases settle_plain hj with ⟨hfree, rfl⟩ | ⟨hin, k, rfl⟩
  · exact ⟨fun _ => rfl, fun hin => absurd hin hfree⟩
  · exact ⟨fun hfree => absurd hin hfree, fun _ => ⟨k, rfl⟩⟩

end Import

end Understudy
