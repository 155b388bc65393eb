import Understudy.Proofs.Aggregation

/-!
# Import lists as sets

Names are handed out one after the other, so the list that comes out could depend on the order of
the files and on how often they repeat an import. It does not: two imports of which each may stand
before the other are equal, so the sorted list without equal neighbours is determined by its
members.

* `Import.pairwise_merged_ne`: the merged list is sorted, and no import is in it twice.
* `Import.merged_congr`: it is determined by the set of its members and the set of support paths.
* `Import.aggregate_eq_of_sets`: so is the outcome.
-/

namespace Understudy.Import

/-- No import stands twice in a list `l` that is sorted by `Precedes o` and whose neighbours
differ. -/
theorem pairwise_ne_of_chain {o : Options} {l : List Import} (hsorted : l.Pairwise (Precedes o))
    (hchain : l.IsChain (· ≠ ·)) : l.Pairwise fun a b => Precedes o a b ∧ a ≠ b := by
  induction l with
  | nil => exact .nil
  | cons a l ih =>
    rw [List.pairwise_cons] at hsorted ⊢
    refine ⟨fun b hb => ⟨hsorted.1 b hb, ?_⟩, ih hsorted.2 hchain.tail⟩
    cases l with
    | nil => cases hb
    | cons c l =>
      rw [List.isChain_cons_cons] at hchain
      rintro rfl
      -- the neighbour `c` lies between `a` and its second occurrence
      have hca : Precedes o c a := by
        rcases List.mem_cons.1 hb with rfl | hb
        · exact absurd rfl hchain.1
        · exact (List.pairwise_cons.1 hsorted.2).1 a hb
      exact hchain.1 ((hsorted.1 c List.mem_cons_self).antisymm hca)

theorem pairwise_merged (o : Options) (imports : List Import) :
    (merged o imports).Pairwise (Precedes o) := by
  obtain ⟨sorted, -, hsorted, hmerged⟩ := merged_eq o imports
  rw [hmerged]
  exact hsorted.sublist (List.destutter_sublist _ _)

theorem pairwise_merged_ne (o : Options) (imports : List Import) :
    (merged o imports).Pairwise fun a b => Precedes o a b ∧ a ≠ b := by
  refine pairwise_ne_of_chain (pairwise_merged o imports) ?_
  obtain ⟨sorted, -, -, hmerged⟩ := merged_eq o imports
  rw [hmerged]
  exact List.isChain_destutter _ sorted

/-- Only the set of `supportImports` has a part in `Precedes`. -/
theorem precedes_congr {o o' : Options}
    (hsupport : ∀ path, path ∈ o.supportImports ↔ path ∈ o'.supportImports) :
    Precedes o = Precedes o' := by
  funext a b
  simp only [Precedes, hsupport]

/-- `merged o imports` is determined by the set of its members and that of `o.supportImports`. -/
theorem merged_congr {o o' : Options} {imports imports' : List Import}
    (hsupport : ∀ path, path ∈ o.supportImports ↔ path ∈ o'.supportImports)
    (hmem : ∀ i, i ∈ merged o imports ↔ i ∈ merged o' imports') :
    merged o imports = merged o' imports' := by
  have hsorted := pairwise_merged_ne o imports
  have hsorted' := pairwise_merged_ne o' imports'
  rw [← precedes_congr hsupport] at hsorted'
  have : Std.Antisymm fun a b : Import => Precedes o a b ∧ a ≠ b :=
    ⟨fun _ _ hab hba => hab.1.antisymm hba.1⟩
  have : Std.Irrefl fun a b : Import => Precedes o a b ∧ a ≠ b := ⟨fun _ haa => haa.2 rfl⟩
  exact hsorted.eq_of_mem_iff hsorted' hmem

/-- The outcome of `aggregate` depends on sets only: on that of `imports` together with the plain
imports of `o.supportImports`, and on that of `o.supportImports`. Order, repetitions and all other
settings have no part in it, neither in the list and its aliases nor in the error. -/
theorem aggregate_eq_of_sets {o o' : Options} {imports imports' : List Import}
    (himports : ∀ i, i ∈ imports ++ o.supportImports.map (fun path => Import.mk path none) ↔
      i ∈ imports' ++ o'.supportImports.map (fun path => Import.mk path none))
    (hsupport : ∀ path, path ∈ o.supportImports ↔ path ∈ o'.supportImports) :
    aggregate o imports = aggregate o' imports' := by
  have hmem : ∀ i, i ∈ merged o imports ↔ i ∈ merged o' imports' := by
    intro i
    have h := himports i
    rw [List.mem_append, List.mem_append, List.mem_map, List.mem_map] at h
    rw [mem_merged, mem_merged]
    exact h
  rw [aggregate, aggregate, merged_congr hsupport hmem]

/-- Three packages that end in `sort`, in two orders. Once the support path is imported by a file as
well, and once it is listed twice. -/
theorem aggregate_eq_of_sets_sort :
    aggregate { supportImports := ["sort"] }
        [⟨"b/sort", none⟩, ⟨"sort", none⟩, ⟨"a/sort", none⟩, ⟨"b/sort", none⟩] =
      aggregate { supportImports := ["sort", "sort"], marker := "//mock" }
        [⟨"a/sort", none⟩, ⟨"b/sort", none⟩] ∧
    aggregate { supportImports := ["sort", "sort"], marker := "//mock" }
        [⟨"a/sort", none⟩, ⟨"b/sort", none⟩] =
      .ok [⟨"sort", none⟩, ⟨"a/sort", some "sort2"⟩, ⟨"b/sort", some "sort3"⟩] := by
  constructor
  · apply aggregate_eq_of_sets
    · intro i
      simp only [List.map_cons, List.map_nil, List.cons_append, List.nil_append, List.mem_cons]
      tauto
    · intro path
      simp
  · exact (aggregate_of_sorted [⟨"sort", none⟩, ⟨"sort", none⟩, ⟨"a/sort", none⟩, ⟨"b/sort", none⟩]
      (by decide +kernel) (by decide +kernel)).trans (by decide +kernel)

end Understudy.Import
