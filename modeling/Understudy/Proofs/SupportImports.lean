import Understudy.Proofs.Crowding
import Understudy.Proofs.ImportSets

/-!
# Support imports

Support imports come first in the list, so imports of other paths do not take their names. But the
imports of one support path under an alias come before the next support path as well, and these can
take its name: then it is the support import that is renamed.

* `Import.supportBefore`: the imports of the support paths before a path.
* `Import.plain_mem_iff_not_crowded`: a support path keeps its plain import exactly if the names of
  those do not crowd into its last segment.
* `Import.aggregate_support_plain_iff`: when all of them do.
-/

namespace Understudy.Import

open Name (Crowded lastSegment numeral)

/-- The imports of the support paths that are less than `path`. -/
def supportBefore (o : Options) (imports : List Import) (path : String) : List Import :=
  (merged o imports).filter fun i => i.path ∈ o.supportImports ∧ i.path < path

theorem mem_supportBefore {o : Options} {imports : List Import} {path : String} {i : Import} :
    i ∈ supportBefore o imports path ↔
      i ∈ merged o imports ∧ i.path ∈ o.supportImports ∧ i.path < path := by
  simp [supportBefore]

/-- What comes before the plain import of a support path `path` are the imports of lesser support
paths. -/
theorem precedes_plain_iff {o : Options} {path : String} (hpath : path ∈ o.supportImports)
    {i : Import} :
    Precedes o i ⟨path, none⟩ ∧ i ≠ ⟨path, none⟩ ↔ i.path ∈ o.supportImports ∧ i.path < path := by
  obtain ⟨ipath, name⟩ := i
  unfold Precedes
  cases name <;> grind

/-- `merged o imports` is cut at the plain import of a support path `path`. -/
theorem merged_eq_supportBefore {o : Options} (imports : List Import) {path : String}
    (hpath : path ∈ o.supportImports) :
    ∃ after, merged o imports = supportBefore o imports path ++ ⟨path, none⟩ :: after ∧
      ⟨path, none⟩ ∉ after := by
  have hmem : ⟨path, none⟩ ∈ merged o imports := mem_merged.2 (.inr ⟨path, hpath, rfl⟩)
  obtain ⟨before, after, hmerged⟩ := List.append_of_mem hmem
  have hsorted := pairwise_merged_ne o imports
  rw [hmerged, List.pairwise_append, List.pairwise_cons] at hsorted
  obtain ⟨-, ⟨hafter, -⟩, hcross⟩ := hsorted
  refine ⟨after, ?_, fun hin => (hafter _ hin).2 rfl⟩
  have hbefore : ∀ i ∈ before, i.path ∈ o.supportImports ∧ i.path < path :=
    fun i hi => (precedes_plain_iff hpath).1 (hcross i hi _ List.mem_cons_self)
  have hnot : ∀ i ∈ after, ¬ (i.path ∈ o.supportImports ∧ i.path < path) := by
    intro i hi hless
    have hi' := (precedes_plain_iff hpath).2 hless
    exact hi'.2 (hi'.1.antisymm (hafter i hi).1)
  have hcut : supportBefore o imports path = before := by
    rw [supportBefore, hmerged, List.filter_append, List.filter_cons_of_neg (by simp),
      List.filter_eq_self.2 (by simpa using hbefore),
      List.filter_eq_nil_iff.2 (by simpa using hnot), List.append_nil]
  rw [hcut, hmerged]

/-- `settleAll` never takes an alias away. -/
theorem mem_of_mem_settleAll {taken : List String} {l result : List Import}
    (h : settleAll taken l = .ok result) {i : Import} (hi : i ∈ result) (hplain : i.name = none) :
    i ∈ l := by
  induction l generalizing taken result with
  | nil =>
    obtain rfl := Except.ok.inj h
    exact hi
  | cons x l ih =>
    obtain ⟨j, rest, hj, hrest, rfl⟩ := settleAll_cons_eq_ok_iff.1 h
    rcases List.mem_cons.1 hi with rfl | hi
    · cases settle_eq_iff.1 hj with
      | nameless _ => exact List.mem_cons_self
      | kept _ _ => exact List.mem_cons_self
      | counted _ _ _ _ => cases hplain
    · exact List.mem_cons_of_mem _ (ih hrest hi)

/-- A support path `path` keeps its plain import exactly if `supportBefore`, the imports of the
support paths before it, does not crowd into `lastSegment path`. -/
theorem plain_mem_iff_not_crowded {o : Options} {imports result : List Import}
    (h : aggregate o imports = .ok result) {path : String} (hpath : path ∈ o.supportImports) :
    ⟨path, none⟩ ∈ result ↔
      ¬ Crowded ((supportBefore o imports path).filterMap claim?) (lastSegment path) := by
  obtain ⟨after, hmerged, hafter⟩ := merged_eq_supportBefore imports hpath
  rw [aggregate, hmerged] at h
  obtain ⟨r, r', hr, hr', rfl⟩ := settleAll_append h
  obtain ⟨j, rest, hj, hrest, rfl⟩ := settleAll_cons_eq_ok_iff.1 hr'
  rw [← mem_claims_iff_crowded hr]
  have hcases := settle_plain hj
  rw [List.append_nil, List.mem_reverse] at hcases
  rcases hcases with ⟨hfree, rfl⟩ | ⟨htaken, k, rfl⟩
  · exact iff_of_true (by simp) hfree
  · refine iff_of_false (fun hin => ?_) (not_not.2 htaken)
    rw [List.mem_append, List.mem_cons] at hin
    rcases hin with hin | hin | hin
    · exact lt_irrefl _ (mem_supportBefore.1 (mem_of_mem_settleAll hr hin rfl)).2.2
    · cases hin
    · exact hafter (mem_of_mem_settleAll hrest hin rfl)

/-! ## All support paths -/

/-- `i` goes by the last segment of its path or by its alias. -/
theorem claim?_cases {i : Import} {name : String} (h : i.claim? = some name) :
    i.name = none ∧ name = lastSegment i.path ∨ i.name = some name := by
  obtain ⟨-, rfl⟩ := claim?_eq_some.1 h
  cases hname : i.name with
  | none => exact .inl ⟨rfl, by rw [localName, hname, Option.getD_none]⟩
  | some given => exact .inr (by rw [localName, hname, Option.getD_some])

section Distinct

variable {o : Options} {imports : List Import}
  (hdistinct : ∀ p ∈ o.supportImports, ∀ q ∈ o.supportImports,
    lastSegment p = lastSegment q → p = q)

include hdistinct

/-- `lastSegment path` is claimed before a support path `path` exactly if an import of a lesser
support path has it for an alias. -/
theorem lastSegment_mem_claims_iff {path : String} (hpath : path ∈ o.supportImports) :
    lastSegment path ∈ (supportBefore o imports path).filterMap claim? ↔
      ∃ i ∈ imports, i.path ∈ o.supportImports ∧ i.path < path ∧
        i.name = some (lastSegment path) ∧ i.claim? ≠ none := by
  rw [List.mem_filterMap]
  constructor
  · rintro ⟨i, hi, hclaim⟩
    obtain ⟨hmerged, hsupport, hlt⟩ := mem_supportBefore.1 hi
    have hclaims : i.claim? ≠ none := by rw [hclaim]; simp
    rcases claim?_cases hclaim with ⟨-, hsegment⟩ | hname
    · exact absurd (hdistinct _ hsupport _ hpath hsegment.symm) hlt.ne
    · rcases mem_merged.1 hmerged with himports | ⟨q, -, rfl⟩
      · exact ⟨i, himports, hsupport, hlt, hname, hclaims⟩
      · cases hname
  · rintro ⟨i, hi, hsupport, hlt, hname, hclaims⟩
    refine ⟨i, mem_supportBefore.2 ⟨mem_merged.2 (.inl hi), hsupport, hlt⟩, ?_⟩
    obtain ⟨name, hclaim⟩ := Option.ne_none_iff_exists'.1 hclaims
    rcases claim?_cases hclaim with ⟨hnone, -⟩ | hname'
    · rw [hname] at hnone
      cases hnone
    · rw [hclaim, ← hname', hname]

/-- Without aliases the imports `supportBefore` a path claim different names. -/
theorem nodup_claims_supportBefore
    (hplain : ∀ i ∈ imports, i.path ∈ o.supportImports → i.name = none ∨ i.claim? = none)
    (path : String) : ((supportBefore o imports path).filterMap claim?).Nodup := by
  have hsegment : ∀ i ∈ supportBefore o imports path, ∀ name, i.claim? = some name →
      i = ⟨i.path, none⟩ ∧ name = lastSegment i.path ∧ i.path ∈ o.supportImports := by
    intro i hi name hclaim
    obtain ⟨hmerged, hsupport, -⟩ := mem_supportBefore.1 hi
    have hnone : i.name = none := by
      rcases mem_merged.1 hmerged with himports | ⟨q, -, rfl⟩
      · refine (hplain i himports hsupport).resolve_right ?_
        rw [hclaim]
        simp
      · rfl
    rcases claim?_cases hclaim with ⟨-, rfl⟩ | hname
    · exact ⟨by rw [← hnone], rfl, hsupport⟩
    · rw [hnone] at hname
      cases hname
  rw [List.Nodup, List.pairwise_filterMap]
  refine ((pairwise_merged_ne o imports).filter _).imp_of_mem ?_
  rintro i j hi hj ⟨-, hne⟩ name hname _ hname' rfl
  obtain ⟨hi, rfl, hp⟩ := hsegment i hi name hname
  obtain ⟨hj, heq, hq⟩ := hsegment j hj _ hname'
  exact hne (by rw [hi, hj, hdistinct _ hp _ hq heq])

end Distinct

/-- If the last segments of `o.supportImports` differ, all of them keep their plain imports in
`aggregate` exactly if for none of them `supportBefore`, the imports of lesser support paths, crowds
into its last segment. So they do if no support path is imported under an alias. And if their last
segments do not end in digits, they do exactly if none of these is the alias of an import of a
lesser support path. -/
theorem aggregate_support_plain_iff {o : Options} {imports result : List Import}
    (h : aggregate o imports = .ok result)
    (hdistinct : ∀ p ∈ o.supportImports, ∀ q ∈ o.supportImports,
      lastSegment p = lastSegment q → p = q) :
    ((∀ p ∈ o.supportImports, ⟨p, none⟩ ∈ result) ↔
      ∀ p ∈ o.supportImports,
        ¬ Crowded ((supportBefore o imports p).filterMap claim?) (lastSegment p)) ∧
    ((∀ i ∈ imports, i.path ∈ o.supportImports → i.name = none ∨ i.claim? = none) →
      ∀ p ∈ o.supportImports, ⟨p, none⟩ ∈ result) ∧
    ((∀ p ∈ o.supportImports, numeral (lastSegment p).toList = []) →
      ((∀ p ∈ o.supportImports, ⟨p, none⟩ ∈ result) ↔
        ∀ p ∈ o.supportImports, ∀ i ∈ imports, i.path ∈ o.supportImports → i.path < p →
          i.name = some (lastSegment p) → i.claim? = none)) := by
  have hall : (∀ p ∈ o.supportImports, ⟨p, none⟩ ∈ result) ↔
      ∀ p ∈ o.supportImports,
        ¬ Crowded ((supportBefore o imports p).filterMap claim?) (lastSegment p) :=
    forall₂_congr fun p hp => plain_mem_iff_not_crowded h hp
  refine ⟨hall, fun hplain => hall.2 fun p hp => ?_, fun hnumber => hall.trans ?_⟩
  · refine Name.not_crowded_of_nodup (nodup_claims_supportBefore hdistinct hplain p) ?_
    rw [lastSegment_mem_claims_iff hdistinct hp]
    rintro ⟨i, hi, hsupport, -, hname, hclaims⟩
    rcases hplain i hi hsupport with hnone | hnone
    · rw [hname] at hnone
      cases hnone
    · exact hclaims hnone
  · refine forall₂_congr fun p hp => ?_
    rw [Name.crowded_iff_mem (hnumber p hp), lastSegment_mem_claims_iff hdistinct hp]
    constructor
    · intro hno i hi hsupport hlt hname
      by_contra hclaims
      exact hno ⟨i, hi, hsupport, hlt, hname, hclaims⟩
    · rintro hnone ⟨i, hi, hsupport, hlt, hname, hclaims⟩
      exact hclaims (hnone i hi hsupport hlt hname)

/-- Aliases of support paths that do no harm: that of `b` is the last segment of the lesser `a`, and
gives way to it. -/
theorem aggregate_support_plain_iff_harmless :
    aggregate { supportImports := ["a", "b"] } [⟨"a", some "x"⟩, ⟨"b", some "a"⟩] =
        .ok [⟨"a", none⟩, ⟨"a", some "x"⟩, ⟨"b", none⟩, ⟨"b", some "a2"⟩] ∧
      ∀ p ∈ ["a", "b"],
        ⟨p, none⟩ ∈ [Import.mk "a" none, ⟨"a", some "x"⟩, ⟨"b", none⟩, ⟨"b", some "a2"⟩] := by
  have h : aggregate { supportImports := ["a", "b"] } [⟨"a", some "x"⟩, ⟨"b", some "a"⟩] =
      .ok [⟨"a", none⟩, ⟨"a", some "x"⟩, ⟨"b", none⟩, ⟨"b", some "a2"⟩] :=
    (aggregate_of_sorted [⟨"a", none⟩, ⟨"a", some "x"⟩, ⟨"b", none⟩, ⟨"b", some "a"⟩]
      (by decide +kernel) (by decide +kernel)).trans (by decide +kernel)
  obtain ⟨-, -, hiff⟩ := aggregate_support_plain_iff h (by decide +kernel)
  exact ⟨h, (hiff (by decide +kernel)).2 (by decide +kernel)⟩

/-- The plain import of the support path `b` is renamed, since the lesser `a` is imported under its
last segment. -/
theorem support_import_renamed :
    (∀ p ∈ ["a", "b"], ∀ q ∈ ["a", "b"], lastSegment p = lastSegment q → p = q) ∧
    aggregate { supportImports := ["a", "b"] } [⟨"a", some "b"⟩] =
      .ok [⟨"a", none⟩, ⟨"a", some "b"⟩, ⟨"b", some "b2"⟩] ∧
    ¬ ∀ p ∈ ["a", "b"], ⟨p, none⟩ ∈ [Import.mk "a" none, ⟨"a", some "b"⟩, ⟨"b", some "b2"⟩] := by
  refine ⟨by decide +kernel, ?_, by decide⟩
  exact (aggregate_of_sorted [⟨"a", none⟩, ⟨"a", some "b"⟩, ⟨"b", none⟩]
    (by decide +kernel) (by decide +kernel)).trans (by decide +kernel)

end Understudy.Import
