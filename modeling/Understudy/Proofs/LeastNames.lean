import Understudy.Proofs.Aggregation

/-!
# The least free names of a list

What settling gives for a whole list, by the place of each import: it becomes what is to become of
it by the names that are claimed before it.

* `Import.SettledInTurn`: each import of one list is what is to become of that of another.
* `Import.settleAll_eq_ok_iff`, `Import.settleAll_eq_error_iff`: all imports of a list are settled
  in turn, up to the first for which no number is left.
* `Import.aggregate_settles_least`: the same for the list of several files.
-/

namespace Understudy.Import

open Name (number OutOfRange)

/-! ## A list -/

/-- The imports of `result` are what is to become of those of `l`, each by the names that are taken
from the start or claimed before it in `result`. -/
structure SettledInTurn (taken : List String) (l result : List Import) : Prop where
  length_eq : result.length = l.length
  settles : ∀ n i j, l[n]? = some i → result[n]? = some j →
    Settles ((result.take n).filterMap claim? ++ taken) i (.ok j)

theorem settledInTurn_nil (taken : List String) : SettledInTurn taken [] [] :=
  ⟨rfl, fun n i j hi => by cases hi⟩

/-- What is claimed before an import does not depend on whether `j` counts to the list or to
`taken`. -/
theorem mem_claims_cons {taken : List String} {j : Import} {l : List Import} (name : String) :
    name ∈ l.filterMap claim? ++ (j.claim?.toList ++ taken) ↔
      name ∈ (j :: l).filterMap claim? ++ taken := by
  cases hclaim : j.claim? with
  | none => rw [List.filterMap_cons_none hclaim, Option.toList_none, List.nil_append]
  | some claimed =>
    rw [List.filterMap_cons_some hclaim, Option.toList_some]
    simp only [List.mem_append, List.mem_cons, List.not_mem_nil, or_false, or_assoc, or_left_comm]

theorem settledInTurn_cons_iff {taken : List String} {i j : Import} {l rest : List Import} :
    SettledInTurn taken (i :: l) (j :: rest) ↔
      Settles taken i (.ok j) ∧ SettledInTurn (j.claim?.toList ++ taken) l rest := by
  constructor
  · rintro ⟨hlength, hall⟩
    refine ⟨hall 0 i j rfl rfl, Nat.succ.inj hlength, fun n a b ha hb => ?_⟩
    exact (hall (n + 1) a b ha hb).of_mem_iff fun name => (mem_claims_cons name).symm
  · rintro ⟨hfirst, hlength, hall⟩
    refine ⟨congrArg Nat.succ hlength, fun n a b ha hb => ?_⟩
    cases n with
    | zero =>
      obtain rfl := Option.some.inj ha
      obtain rfl := Option.some.inj hb
      exact hfirst
    | succ n => exact (hall n a b ha hb).of_mem_iff mem_claims_cons

/-- `settleAll` succeeds with `result` exactly if each import of `l` in turn becomes what `Settles`
says. -/
theorem settleAll_eq_ok_iff {taken : List String} {l result : List Import} :
    settleAll taken l = .ok result ↔ SettledInTurn taken l result := by
  induction l generalizing taken result with
  | nil =>
    constructor
    · intro h
      obtain rfl := Except.ok.inj h
      exact settledInTurn_nil taken
    · intro h
      rw [List.eq_nil_of_length_eq_zero h.length_eq]
      rfl
  | cons i l ih =>
    rw [settleAll_cons_eq_ok_iff]
    constructor
    · rintro ⟨j, rest, hj, hrest, rfl⟩
      exact settledInTurn_cons_iff.2 ⟨settle_eq_iff.1 hj, ih.1 hrest⟩
    · intro h
      obtain ⟨j, rest, rfl⟩ := List.exists_cons_of_length_eq_add_one h.length_eq
      obtain ⟨hj, hrest⟩ := settledInTurn_cons_iff.1 h
      exact ⟨j, rest, settle_eq_iff.2 hj, ih.2 hrest, rfl⟩

/-- Those before it settled, there is an import in `l` for which no number is left, and `e` says
so. -/
def StopsWith (taken : List String) (l : List Import) (e : OutOfRange) : Prop :=
  ∃ before i after earlier, l = before ++ i :: after ∧ SettledInTurn taken before earlier ∧
    Settles (earlier.filterMap claim? ++ taken) i (.error e)

theorem stopsWith_cons_iff {taken : List String} {x : Import} {l : List Import} {e : OutOfRange} :
    StopsWith taken (x :: l) e ↔
      Settles taken x (.error e) ∨
        ∃ j, Settles taken x (.ok j) ∧ StopsWith (j.claim?.toList ++ taken) l e := by
  constructor
  · rintro ⟨before, i, after, earlier, hl, hearlier, hi⟩
    cases before with
    | nil =>
      obtain ⟨rfl, -⟩ := List.cons.inj hl
      obtain rfl := List.eq_nil_of_length_eq_zero hearlier.length_eq
      exact .inl hi
    | cons b before =>
      obtain ⟨rfl, rfl⟩ := List.cons.inj hl
      obtain ⟨j, rest, rfl⟩ := List.exists_cons_of_length_eq_add_one hearlier.length_eq
      obtain ⟨hj, hrest⟩ := settledInTurn_cons_iff.1 hearlier
      exact .inr ⟨j, hj, before, i, after, rest, rfl, hrest,
        hi.of_mem_iff fun name => (mem_claims_cons name).symm⟩
  · rintro (hx | ⟨j, hx, before, i, after, earlier, rfl, hearlier, hi⟩)
    · exact ⟨[], x, l, [], rfl, settledInTurn_nil taken, hx⟩
    · exact ⟨x :: before, i, after, j :: earlier, rfl, settledInTurn_cons_iff.2 ⟨hx, hearlier⟩,
        hi.of_mem_iff mem_claims_cons⟩

/-- `settleAll` fails with `e` exactly if no number is left for one of the imports of `l`. -/
theorem settleAll_eq_error_iff {taken : List String} {l : List Import} {e : OutOfRange} :
    settleAll taken l = .error e ↔ StopsWith taken l e := by
  induction l generalizing taken with
  | nil =>
    constructor
    · intro h; cases h
    · rintro ⟨before, i, after, earlier, hl, -⟩
      simp at hl
  | cons x l ih =>
    simp only [stopsWith_cons_iff, ← settle_eq_iff, ← ih]
    cases hx : settle taken x with
    | error e' =>
      have hstop : settleAll taken (x :: l) = .error e' := by
        simp only [settleAll, hx, bind, Except.bind]
      simp [hstop]
    | ok j =>
      have hgo : settleAll taken (x :: l) = .error e ↔
          settleAll (j.claim?.toList ++ taken) l = .error e := by
        simp only [settleAll, hx, bind, Except.bind, pure, Except.pure]
        cases settleAll (j.claim?.toList ++ taken) l <;> simp
      simp [hgo]

/-! ## The whole list -/

/-- `aggregate o imports` is `sorted`, which holds `imports` and the plain imports of
`o.supportImports` in the order `Precedes o`, without repetition and with `SettledInTurn`: one after
the other, each import keeps the name that it claims if none before it has it, and else takes the
least number that is `NextFree`. `aggregate` fails exactly if the list `StopsWith` an import for
which no number of 64 bits is left, and that takes more claimed names than there are numbers above
its own. The search `freshName` for a number always ends. -/
theorem aggregate_settles_least (o : Options) (imports : List Import) :
    (∃ sorted : List Import,
      sorted.Perm (imports ++ o.supportImports.map fun path => Import.mk path none) ∧
      sorted.Pairwise (Precedes o) ∧
      (∀ result, aggregate o imports = .ok result ↔
        SettledInTurn [] (sorted.destutter (· ≠ ·)) result) ∧
      ∀ e, aggregate o imports = .error e ↔
        ∃ before i after earlier, sorted.destutter (· ≠ ·) = before ++ i :: after ∧
          SettledInTurn [] before earlier ∧
          Settles (earlier.filterMap claim?) i (.error e)) ∧
    (∀ claimed i e, Settles claimed i (.error e) →
      UInt64.size - 1 < number i.localName.toList + claimed.length) ∧
    ∀ claimed name, ∃ steps ≤ claimed.length,
      CountsUp claimed name steps (freshName claimed name) := by
  refine ⟨?_, ?_, exists_countsUp⟩
  · obtain ⟨sorted, hperm, hsorted, hmerged⟩ := merged_eq o imports
    refine ⟨sorted, hperm, hsorted, fun result => ?_, fun e => ?_⟩
    · rw [aggregate, hmerged, settleAll_eq_ok_iff]
    · rw [aggregate, hmerged, settleAll_eq_error_iff]
      simp only [StopsWith, List.append_nil]
  · intro claimed i e h
    cases h with
    | usedUp hclaim hmem hused =>
      rw [(claim?_eq_some.1 hclaim).2]
      exact Nat.lt_of_lt_of_le (Nat.sub_lt (by decide) (by decide)) (hused.size_le hmem)

end Understudy.Import
