import Mathlib.Algebra.Order.Sub.Basic
import Mathlib.Data.List.Destutter
import Mathlib.Data.String.Basic
import Understudy.Proofs.FreeNames
import Understudy.Proofs.Outcome

/-!
# The import list of several files

`Import.aggregate` sorts, drops repetitions and settles names. The order is stated here without a
comparison function, and what settling may change as a relation between two imports.

* `Import.Precedes`: support imports first, then by path, then by alias with none first.
* `Import.Precedes.antisymm`: the order has no ties.
* `Import.aggregate_of_sorted`: what is sorted already needs only to be settled.
* `Import.Renamed`: another alias at most, and none for an import that claims no name.
* `Import.settleAll_ok`: settling renames, and no two imports of the outcome claim one name.
* `Import.aggregate_localNames_distinct`: the outcome is the sorted list without repetition, renamed
  so that all names differ.
-/

namespace Understudy.Import

/-! ## The order -/

/-- `a` may stand before `b`. -/
def Precedes (o : Options) (a b : Import) : Prop :=
  (a.path ∈ o.supportImports ∧ b.path ∉ o.supportImports) ∨
    (a.path ∈ o.supportImports ↔ b.path ∈ o.supportImports) ∧
      (a.path < b.path ∨ a.path = b.path ∧
        (a.name = none ∨ ∃ x y, a.name = some x ∧ b.name = some y ∧ x ≤ y))

theorem Precedes.trans {o : Options} {a b c : Import} (hab : Precedes o a b)
    (hbc : Precedes o b c) : Precedes o a c := by
  unfold Precedes at *
  grind

theorem Precedes.total (o : Options) (a b : Import) : Precedes o a b ∨ Precedes o b a := by
  unfold Precedes
  cases ha : a.name <;> cases hb : b.name <;> grind

/-- `Precedes` has no ties: the `path` and the `name` are all there is to an import. -/
theorem Precedes.antisymm {o : Options} {a b : Import} (hab : Precedes o a b)
    (hba : Precedes o b a) : a = b := by
  obtain ⟨path, name⟩ := a
  obtain ⟨path', name'⟩ := b
  unfold Precedes at hab hba
  cases name <;> cases name' <;> grind

theorem compare_name_isLE (x y : Option String) :
    (compare x y).isLE = true ↔ x = none ∨ ∃ s t, x = some s ∧ y = some t ∧ s ≤ t := by
  cases x with
  | none => cases y <;> simp [compare]
  | some s =>
    cases y with
    | none => simp [compare]
    | some t =>
      have h : (compare s t).isLE = true ↔ s ≤ t := Ordering.isLE_iff_ne_gt.trans compare_le_iff_le
      simpa [compare] using h

/-- The comparison `before`, by which `merged` sorts, decides `Precedes`. -/
theorem before_iff {o : Options} {a b : Import} : before o a b = true ↔ Precedes o a b := by
  have hs : ∀ i : Import, i.path ∈ o.supportImports ↔ o.isSupportImport i.path = true := by
    intro i; simp [Options.isSupportImport]
  have hc : compare a b = (compare a.path b.path).then (compare a.name b.name) := rfl
  have hlt : compare a.path b.path = .lt ↔ a.path < b.path := compare_lt_iff_lt
  have heq : compare a.path b.path = .eq ↔ a.path = b.path := compare_eq_iff_eq
  unfold before Precedes
  rw [hs a, hs b, hc, Ordering.isLE_then_iff_or, Ordering.isLE_then_iff_or, compare_name_isLE, hlt,
    heq]
  cases o.isSupportImport a.path <;> cases o.isSupportImport b.path <;> simp [compare]

theorem squeeze_eq_destutter (l : List Import) : squeeze l = l.destutter (· ≠ ·) := by
  fun_induction squeeze l with
  | case1 a rest ih =>
    rw [ih, List.destutter_cons_cons, if_neg (by simp), List.destutter_cons']
  | case2 a b rest hne ih =>
    rw [ih, List.destutter_cons_cons, if_pos hne, List.destutter_cons']
  | case3 l hl =>
    match l, hl with
    | [], _ => rfl
    | [a], _ => rfl
    | a :: b :: rest, hl => exact absurd rfl (hl a b rest)

/-- `merged o imports` holds `imports` and the imports for support, sorted by `Precedes o`, and of
equal neighbours only one. -/
theorem merged_eq (o : Options) (imports : List Import) :
    ∃ sorted : List Import,
      sorted.Perm (imports ++ o.supportImports.map fun path => Import.mk path none) ∧
      sorted.Pairwise (Precedes o) ∧ merged o imports = sorted.destutter (· ≠ ·) := by
  refine ⟨_, List.mergeSort_perm _ (before o), ?_, squeeze_eq_destutter _⟩
  refine (List.pairwise_mergeSort ?_ ?_ _).imp before_iff.1
  · intro a b c hab hbc
    exact before_iff.2 ((before_iff.1 hab).trans (before_iff.1 hbc))
  · intro a b
    rw [Bool.or_eq_true, before_iff, before_iff]
    exact Precedes.total o a b

/-- The list `sorted` is the merged list of `imports` up to repetitions, if it is in order and has
the same imports. -/
theorem merged_of_sorted {o : Options} {imports : List Import} (sorted : List Import)
    (hperm : sorted.Perm (imports ++ o.supportImports.map fun path => Import.mk path none))
    (hsorted : sorted.Pairwise fun a b => before o a b = true) :
    merged o imports = squeeze sorted := by
  obtain ⟨sorted', hperm', hsorted', hmerged⟩ := merged_eq o imports
  obtain rfl : sorted' = sorted := (hperm'.trans hperm.symm).eq_of_pairwise
    (fun a b _ _ hab hba => Precedes.antisymm hab hba) hsorted' (hsorted.imp before_iff.1)
  rw [hmerged, squeeze_eq_destutter]

theorem aggregate_of_sorted {o : Options} {imports : List Import} (sorted : List Import)
    (hperm : sorted.Perm (imports ++ o.supportImports.map fun path => Import.mk path none))
    (hsorted : sorted.Pairwise fun a b => before o a b = true) :
    aggregate o imports = settleAll [] (squeeze sorted) := by
  rw [aggregate, merged_of_sorted sorted hperm hsorted]

/-! ## Settling names -/

/-- `j` is `i` with another alias at most. An import that claims no name is not changed, and no
other becomes one that claims none. -/
structure Renamed (i j : Import) : Prop where
  path : j.path = i.path
  untouched : i.isBlank = true ∨ i.isDot = true → j = i
  isBlank : j.isBlank = true → i.isBlank = true
  isDot : j.isDot = true → i.isDot = true

theorem Renamed.refl (i : Import) : Renamed i i := ⟨rfl, fun _ => rfl, id, id⟩

theorem claim?_eq_some {i : Import} {name : String} :
    i.claim? = some name ↔ (i.isBlank = false ∧ i.isDot = false) ∧ i.localName = name := by
  simp [claim?]

/-- An alias `Name.numbered stem n` that was counted up is what its import claims. -/
theorem claim?_numbered (path : String) (stem : List Char) (n : Nat) :
    (Import.mk path (some (Name.numbered stem n))).claim? = some (Name.numbered stem n) := by
  have hblank : Name.numbered stem n ≠ "_" := Name.numbered_ne stem n rfl
  have hdot : Name.numbered stem n ≠ "." := Name.numbered_ne stem n rfl
  exact claim?_eq_some.2 ⟨⟨by simp [isBlank, hblank], by simp [isDot, hdot]⟩, rfl⟩

/-- One step: `settle` renames `i` at most, and the result `j` claims no name of `taken`. -/
theorem settle_ok {taken : List String} {i j : Import} (h : settle taken i = .ok j) :
    Renamed i j ∧ ∀ name ∈ j.claim?, name ∉ taken := by
  cases settle_eq_iff.1 h with
  | nameless hclaim => exact ⟨.refl i, by simp [hclaim]⟩
  | kept hclaim hfree => exact ⟨.refl i, by simpa [hclaim] using hfree⟩
  | @counted name k hclaim _ hnext _ =>
    have hclaim' := claim?_numbered i.path (Name.stem name.toList) k
    obtain ⟨⟨hb, hd⟩, -⟩ := claim?_eq_some.1 hclaim
    obtain ⟨⟨hb', hd'⟩, -⟩ := claim?_eq_some.1 hclaim'
    exact ⟨⟨rfl, by simp [hb, hd], by simp [hb'], by simp [hd']⟩,
      by simpa [hclaim'] using hnext.1.2⟩

theorem settleAll_cons_eq_ok_iff {taken : List String} {i : Import} {l result : List Import} :
    settleAll taken (i :: l) = .ok result ↔
      ∃ j rest, settle taken i = .ok j ∧ settleAll (j.claim?.toList ++ taken) l = .ok rest ∧
        result = j :: rest := by
  constructor
  · intro h
    obtain ⟨j, hj, h⟩ := Outcome.bind_ok h
    obtain ⟨rest, hrest, h⟩ := Outcome.bind_ok h
    exact ⟨j, rest, hj, hrest, (Except.ok.inj h).symm⟩
  · rintro ⟨j, rest, hj, hrest, rfl⟩
    simp only [settleAll, hj, hrest, bind, Except.bind, pure, Except.pure]

/-- A run: `settleAll` renames the imports of `l` at most. What they claim differs, and none of it
is in `taken`. -/
theorem settleAll_ok {taken : List String} {l result : List Import}
    (h : settleAll taken l = .ok result) :
    List.Forall₂ Renamed l result ∧ (result.filterMap claim?).Nodup ∧
      ∀ name ∈ result.filterMap claim?, name ∉ taken := by
  induction l generalizing taken result with
  | nil =>
    obtain rfl := Except.ok.inj h
    exact ⟨.nil, by simp, by simp⟩
  | cons i l ih =>
    obtain ⟨j, rest, hj, hrest, rfl⟩ := settleAll_cons_eq_ok_iff.1 h
    obtain ⟨hi, hfree⟩ := settle_ok hj
    obtain ⟨hl, hnodup, hnot⟩ := ih hrest
    refine ⟨.cons hi hl, ?_⟩
    cases hc : j.claim? with
    | none =>
      rw [List.filterMap_cons_none hc]
      refine ⟨hnodup, fun name hname hin => hnot name hname ?_⟩
      exact List.mem_append_right _ hin
    | some name =>
      rw [List.filterMap_cons_some hc, List.nodup_cons]
      refine ⟨⟨fun hin => hnot name hin (by simp [hc]), hnodup⟩, ?_⟩
      rw [List.forall_mem_cons]
      refine ⟨hfree name (by simp [hc]), fun other hother hin => hnot other hother ?_⟩
      exact List.mem_append_right _ hin

/-- `settleAll` settles `l ++ l'` in two runs. The second takes the claims of the first for
taken. -/
theorem settleAll_append {taken : List String} {l l' result : List Import}
    (h : settleAll taken (l ++ l') = .ok result) :
    ∃ r r', settleAll taken l = .ok r ∧
      settleAll ((r.filterMap claim?).reverse ++ taken) l' = .ok r' ∧ result = r ++ r' := by
  induction l generalizing taken result with
  | nil => exact ⟨[], result, rfl, h, rfl⟩
  | cons i l ih =>
    obtain ⟨j, rest, hj, hrest, rfl⟩ := settleAll_cons_eq_ok_iff.1 h
    obtain ⟨r, r', hr, hr', rfl⟩ := ih hrest
    refine ⟨j :: r, r', settleAll_cons_eq_ok_iff.2 ⟨j, r, hj, hr, rfl⟩, ?_, rfl⟩
    have htaken : ((j :: r).filterMap claim?).reverse ++ taken =
        (r.filterMap claim?).reverse ++ (j.claim?.toList ++ taken) := by
      cases hc : j.claim? <;> simp [hc]
    rw [htaken]
    exact hr'

/-! ## The whole list -/

/-- Imports that claim a name have different `localName`s if the claims differ. -/
theorem pairwise_localName {l : List Import} (h : (l.filterMap claim?).Nodup) :
    (l.filter fun i => !i.isBlank && !i.isDot).Pairwise fun i j => i.localName ≠ j.localName := by
  rw [List.Nodup, List.pairwise_filterMap] at h
  rw [List.pairwise_filter]
  refine h.imp fun hclaims hi hj heq => ?_
  simp only [Bool.and_eq_true, Bool.not_eq_true'] at hi hj
  exact hclaims _ (claim?_eq_some.2 ⟨hi, rfl⟩) _ (claim?_eq_some.2 ⟨hj, rfl⟩) heq

theorem mem_squeeze {l : List Import} {i : Import} : i ∈ squeeze l ↔ i ∈ l := by
  fun_induction squeeze l with
  | case1 a rest ih => simp_all
  | case2 a b rest hne ih => simp_all
  | case3 l hl => rfl

theorem mem_merged {o : Options} {imports : List Import} {i : Import} :
    i ∈ merged o imports ↔ i ∈ imports ∨ ∃ path ∈ o.supportImports, Import.mk path none = i := by
  rw [merged, mem_squeeze, List.mem_mergeSort, List.mem_append, List.mem_map]

/-- Every import `i` of `merged o imports` is in the `result` of `aggregate`, `Renamed` at most. -/
theorem exists_renamed {o : Options} {imports result : List Import}
    (h : aggregate o imports = .ok result) {i : Import} (hi : i ∈ merged o imports) :
    ∃ j ∈ result, Renamed i j :=
  Outcome.exists_of_forall₂ (settleAll_ok h).1 hi

/-- Two imports of the `result` of `aggregate` that claim one `localName` are the same. -/
theorem eq_of_localName_eq {o : Options} {imports result : List Import}
    (h : aggregate o imports = .ok result) {i j : Import} (hi : i ∈ result) (hj : j ∈ result)
    (hib : i.isBlank = false) (hid : i.isDot = false) (hjb : j.isBlank = false)
    (hjd : j.isDot = false) (heq : i.localName = j.localName) : i = j := by
  by_contra hne
  have hpairs := pairwise_localName (settleAll_ok h).2.1
  have : Std.Symm fun a b : Import => a.localName ≠ b.localName := ⟨fun _ _ => Ne.symm⟩
  exact hpairs.forall (List.mem_filter.2 ⟨hi, by simp [hib, hid]⟩)
    (List.mem_filter.2 ⟨hj, by simp [hjb, hjd]⟩) hne heq

/-- The `result` of `aggregate`: no two imports that claim a name have the same `localName`, and the
list is that of `imports` and the support imports, sorted by `Precedes o` and without repetition,
each import `Renamed` at most. -/
theorem aggregate_localNames_distinct {o : Options} {imports result : List Import}
    (h : aggregate o imports = .ok result) :
    ((result.filter fun i => !i.isBlank && !i.isDot).Pairwise
        fun i j => i.localName ≠ j.localName) ∧
      ∃ sorted : List Import,
        sorted.Perm (imports ++ o.supportImports.map fun path => Import.mk path none) ∧
        sorted.Pairwise (Precedes o) ∧
        List.Forall₂ Renamed (sorted.destutter (· ≠ ·)) result := by
  obtain ⟨hrenamed, hnodup, -⟩ := settleAll_ok h
  obtain ⟨sorted, hperm, hsorted, hmerged⟩ := merged_eq o imports
  exact ⟨pairwise_localName hnodup, sorted, hperm, hsorted, hmerged ▸ hrenamed⟩

/-- Where no file imports anything, `aggregate` gives the support imports. -/
theorem aggregate_nil : aggregate {} [] = .ok [⟨"sync/atomic", none⟩, ⟨"testing", none⟩] :=
  (aggregate_of_sorted [⟨"sync/atomic", none⟩, ⟨"testing", none⟩] (by decide +kernel)
    (by decide +kernel)).trans (by decide +kernel)

/-- The support import `x` goes by the name of `b/x`, which cannot be counted up to `x2` because `a`
goes by that. -/
theorem aggregate_localNames_distinct_of_taken_alias :
    aggregate { supportImports := ["x"] } [⟨"b/x", none⟩, ⟨"a", some "x2"⟩, ⟨"e", some "_"⟩] =
        .ok [⟨"x", none⟩, ⟨"a", some "x2"⟩, ⟨"b/x", some "x3"⟩, ⟨"e", some "_"⟩] ∧
      [Import.mk "x" none, ⟨"a", some "x2"⟩, ⟨"b/x", some "x3"⟩].Pairwise
        fun i j => i.localName ≠ j.localName := by
  have h : aggregate { supportImports := ["x"] }
      [⟨"b/x", none⟩, ⟨"a", some "x2"⟩, ⟨"e", some "_"⟩] =
        .ok [⟨"x", none⟩, ⟨"a", some "x2"⟩, ⟨"b/x", some "x3"⟩, ⟨"e", some "_"⟩] :=
    (aggregate_of_sorted [⟨"x", none⟩, ⟨"a", some "x2"⟩, ⟨"b/x", none⟩, ⟨"e", some "_"⟩]
      (by decide +kernel) (by decide +kernel)).trans (by decide +kernel)
  exact ⟨h, (aggregate_localNames_distinct h).1⟩

end Understudy.Import
