import Mathlib.Order.Interval.Finset.Nat
import Understudy.Import.Aggregate
import Understudy.Proofs.Numbering

/-!
# The next free name

An import whose name is claimed before it gets the name with the least number that is free. The loop
that looks for it goes from one name to the next and stops at the first that is not taken. It ends
because the numbers grow, so it meets each taken name once at most; and it fails only where the
numbers of 64 bits are used up.

* `Import.CountsUp`: a run of the loop, with the number of its steps.
* `Import.exists_countsUp`: the loop ends after at most one step for each taken name.
* `Import.UsedUp.size_le`: no number is left only where more names are claimed than 64 bits number.
* `Import.Settles`: what is to become of an import, by the names that are claimed before it.
* `Import.settle_eq_iff`: one import becomes just that.
-/

namespace Understudy.Import

open Name (increment increment_eq_error_iff increment_eq_ok_iff lastSegment number
  number_lt_increment numbered numeral stem OutOfRange)

/-! ## The loop -/

/-- A run of the loop: `name` is counted up as long as it is taken, which takes `steps` steps and
ends with `outcome`. -/
inductive CountsUp (taken : List String) : String → Nat → Except OutOfRange String → Prop
  | free {name : String} : name ∉ taken → CountsUp taken name 0 (.ok name)
  | stuck {name : String} {e : OutOfRange} :
    name ∈ taken → increment name = .error e → CountsUp taken name 0 (.error e)
  | next {name following : String} {steps : Nat} {outcome : Except OutOfRange String} :
    name ∈ taken → increment name = .ok following → CountsUp taken following steps outcome →
      CountsUp taken name (steps + 1) outcome

/-- A run from `start` does not come back to a `name` with a lower number. -/
theorem CountsUp.of_erase {taken : List String} {name start : String} {steps : Nat}
    {outcome : Except OutOfRange String} (hlt : number name.toList < number start.toList)
    (h : CountsUp (taken.erase name) start steps outcome) : CountsUp taken start steps outcome := by
  have hmem : ∀ {s : String}, number name.toList < number s.toList →
      (s ∈ taken.erase name ↔ s ∈ taken) := by
    intro s hs
    refine List.mem_erase_of_ne ?_
    rintro rfl
    exact Nat.lt_irrefl _ hs
  induction h with
  | free hfree => exact .free (mt (hmem hlt).2 hfree)
  | stuck htaken he => exact .stuck ((hmem hlt).1 htaken) he
  | next htaken hnext _ ih =>
    exact .next ((hmem hlt).1 htaken) hnext (ih (hlt.trans (number_lt_increment hnext)))

/-- The loop ends, whatever is `taken`, after at most `taken.length` steps, with what `freshName`
gives. -/
theorem exists_countsUp (taken : List String) (name : String) :
    ∃ steps ≤ taken.length, CountsUp taken name steps (freshName taken name) := by
  fun_induction freshName taken name with
  | case1 taken name hmem e he => exact ⟨0, Nat.zero_le _, .stuck hmem he⟩
  | case2 taken name hmem following hnext ih =>
    obtain ⟨steps, hle, hrun⟩ := ih
    have hlength := List.length_erase_of_mem hmem
    have hpos := List.length_pos_of_mem hmem
    exact ⟨steps + 1, by omega, .next hmem hnext (hrun.of_erase (number_lt_increment hnext))⟩
  | case3 taken name hmem => exact ⟨0, Nat.zero_le _, .free hmem⟩

/-! ## What it finds -/

/-- `k` is the least number, greater than that of `name`, with which its stem is not claimed. -/
def NextFree (claimed : List String) (name : String) (k : Nat) : Prop :=
  IsLeast {k | number name.toList < k ∧ numbered (stem name.toList) k ∉ claimed} k

/-- The stem of `name` is claimed with all greater numbers of 64 bits. -/
def UsedUp (claimed : List String) (name : String) : Prop :=
  ∀ k, number name.toList < k → k < UInt64.size → numbered (stem name.toList) k ∈ claimed

/-- The digits of the last name that `name` can be counted up to: the greatest number of 64 bits, or
what `name` ends in if that has no successor. -/
def lastNumeral (name : String) : String :=
  if number name.toList + 1 < UInt64.size then String.ofList (Nat.toDigits 10 (UInt64.size - 1))
  else String.ofList (numeral name.toList)

/-- The number after that of `name` is free, or the search goes on from there. -/
theorem nextFree_iff {claimed : List String} {name : String} {k : Nat} :
    NextFree claimed name k ↔
      if numbered (stem name.toList) (number name.toList + 1) ∈ claimed then
        NextFree claimed (numbered (stem name.toList) (number name.toList + 1)) k
      else k = number name.toList + 1 := by
  split
  · rename_i htaken
    unfold NextFree
    rw [Name.stem_numbered, Name.number_numbered]
    have hset : {k | number name.toList < k ∧ numbered (stem name.toList) k ∉ claimed} =
        {k | number name.toList + 1 < k ∧ numbered (stem name.toList) k ∉ claimed} := by
      ext j
      refine and_congr_left fun hj => ⟨fun hlt => lt_of_le_of_ne hlt ?_, fun hlt => by omega⟩
      rintro rfl
      exact hj htaken
    rw [hset]
  · rename_i hfree
    have hleast : NextFree claimed name (number name.toList + 1) :=
      ⟨⟨Nat.lt_succ_self _, hfree⟩, fun j hj => hj.1⟩
    exact ⟨fun h => h.unique hleast, fun h => h ▸ hleast⟩

theorem usedUp_iff {claimed : List String} {name : String}
    (h : number name.toList + 1 < UInt64.size) :
    UsedUp claimed name ↔
      numbered (stem name.toList) (number name.toList + 1) ∈ claimed ∧
        UsedUp claimed (numbered (stem name.toList) (number name.toList + 1)) := by
  unfold UsedUp
  rw [Name.stem_numbered, Name.number_numbered]
  constructor
  · intro hall
    exact ⟨hall _ (Nat.lt_succ_self _) h, fun k hk => hall k (by omega)⟩
  · rintro ⟨hnext, hall⟩ k hk hsize
    rcases Nat.eq_or_lt_of_le (Nat.succ_le_of_lt hk) with rfl | hlt
    · exact hnext
    · exact hall k hlt hsize

/-- A run that finds a name `found`: it is `name` if that is free, else the one with the `NextFree`
number. -/
theorem CountsUp.ok {taken : List String} {name found : String} {steps : Nat}
    (h : CountsUp taken name steps (.ok found)) :
    if name ∈ taken then
      ∃ k < UInt64.size, NextFree taken name k ∧ found = numbered (stem name.toList) k
    else found = name := by
  generalize hout : (Except.ok found : Except OutOfRange String) = outcome at h
  induction h with
  | free hfree =>
    rw [if_neg hfree]
    exact Except.ok.inj hout
  | stuck _ _ => cases hout
  | @next name following steps outcome htaken hnext _ ih =>
    obtain ⟨hsize, rfl⟩ := increment_eq_ok_iff.1 hnext
    specialize ih hout
    rw [if_pos htaken]
    simp only [@nextFree_iff taken name]
    split at ih
    · rename_i hmem
      obtain ⟨k, hk, hfree, rfl⟩ := ih
      exact ⟨k, hk, by rwa [if_pos hmem], by rw [Name.stem_numbered]⟩
    · rename_i hmem
      exact ⟨_, hsize, by rw [if_neg hmem], ih⟩

/-- A run that fails: all numbers for `name` are `UsedUp`. -/
theorem CountsUp.error {taken : List String} {name : String} {e : OutOfRange} {steps : Nat}
    (h : CountsUp taken name steps (.error e)) :
    name ∈ taken ∧ UsedUp taken name ∧ e = ⟨lastNumeral name⟩ := by
  generalize hout : (Except.error e : Except OutOfRange String) = outcome at h
  induction h with
  | free _ => cases hout
  | @stuck name _ htaken he =>
    obtain rfl := Except.error.inj hout
    obtain ⟨hsize, rfl⟩ := increment_eq_error_iff.1 he
    refine ⟨htaken, fun k hk hlt => by omega, ?_⟩
    rw [lastNumeral, if_neg hsize.not_gt]
  | @next name following steps outcome htaken hnext _ ih =>
    obtain ⟨hsize, rfl⟩ := increment_eq_ok_iff.1 hnext
    obtain ⟨hmem, hused, rfl⟩ := ih hout
    refine ⟨htaken, (usedUp_iff hsize).2 ⟨hmem, hused⟩, ?_⟩
    unfold lastNumeral
    rw [if_pos hsize, Name.number_numbered]
    split
    · rfl
    · have hlast : number name.toList + 1 = UInt64.size - 1 := by omega
      rw [hlast, numbered, String.toList_ofList,
        Name.numeral_append_digits fun _ => Name.isDigit_of_mem_toDigits]

/-- `UsedUp` holds only if the number of `name` and the count of `claimed` together exceed 64
bits. -/
theorem UsedUp.size_le {claimed : List String} {name : String} (h : UsedUp claimed name)
    (hmem : name ∈ claimed) : UInt64.size ≤ number name.toList + claimed.length := by
  -- the name and all names counted up from it are different, and all are claimed
  let counted := (Finset.Ioo (number name.toList) UInt64.size).image (numbered (stem name.toList))
  have hcard : counted.card = UInt64.size - number name.toList - 1 := by
    rw [Finset.card_image_of_injective _ (Name.numbered_injective _), Nat.card_Ioo]
  have hnot : name ∉ counted := by
    intro hin
    obtain ⟨k, hk, heq⟩ := Finset.mem_image.1 hin
    have hnumber := Name.number_of_numbered_eq heq
    rw [Finset.mem_Ioo] at hk
    omega
  have hsubset : insert name counted ⊆ claimed.toFinset := by
    intro s hs
    rw [List.mem_toFinset]
    rcases Finset.mem_insert.1 hs with rfl | hs
    · exact hmem
    · obtain ⟨k, hk, rfl⟩ := Finset.mem_image.1 hs
      rw [Finset.mem_Ioo] at hk
      exact h k hk.1 hk.2
  have hle := (Finset.card_le_card hsubset).trans claimed.toFinset_card_le
  rw [Finset.card_insert_of_notMem hnot] at hle
  omega

/-! ## One import -/

/-- What is to become of an import when `claimed` are the names in use before it. One that claims no
name stays as it is, and so does one whose name is not in use. Any other takes the next free number
of its stem for an alias, and there is none if that has more than 64 bits. -/
inductive Settles (claimed : List String) (i : Import) : Except OutOfRange Import → Prop
  | nameless : i.claim? = none → Settles claimed i (.ok i)
  | kept {name : String} : i.claim? = some name → name ∉ claimed → Settles claimed i (.ok i)
  | counted {name : String} {k : Nat} :
    i.claim? = some name → name ∈ claimed → NextFree claimed name k → k < UInt64.size →
      Settles claimed i (.ok { i with name := some (numbered (stem name.toList) k) })
  | usedUp {name : String} :
    i.claim? = some name → name ∈ claimed → UsedUp claimed name →
      Settles claimed i (.error ⟨lastNumeral name⟩)

theorem settles_settle (taken : List String) (i : Import) : Settles taken i (settle taken i) := by
  unfold settle
  split
  · rename_i hclaim
    exact .nameless hclaim
  · rename_i name hclaim
    obtain ⟨steps, -, hrun⟩ := exists_countsUp taken name
    cases hfresh : freshName taken name with
    | error e =>
      rw [hfresh] at hrun
      obtain ⟨hmem, hused, rfl⟩ := hrun.error
      exact .usedUp hclaim hmem hused
    | ok found =>
      rw [hfresh] at hrun
      have hfound := hrun.ok
      change Settles taken i (.ok (if found = name then i else { i with name := some found }))
      split at hfound
      · rename_i hmem
        obtain ⟨k, hk, hfree, rfl⟩ := hfound
        have hne : numbered (stem name.toList) k ≠ name := by
          intro heq
          rw [← heq] at hmem
          exact hfree.1.2 hmem
        rw [if_neg hne]
        exact .counted hclaim hmem hfree hk
      · rename_i hmem
        rw [if_pos hfound]
        exact .kept hclaim hmem

/-- `claimed` leaves no choice about what `i` settles to. -/
theorem Settles.unique {claimed : List String} {i : Import} {r r' : Except OutOfRange Import}
    (h : Settles claimed i r) (h' : Settles claimed i r') : r = r' := by
  have hapart : ∀ {name k}, NextFree claimed name k → k < UInt64.size → ¬ UsedUp claimed name :=
    fun hfree hk hused => hfree.1.2 (hused _ hfree.1.1 hk)
  cases h <;> cases h' <;> simp_all
  case counted.counted hfree _ _ hfree' _ => exact congrArg _ (hfree.unique hfree')
  case counted.usedUp hfree hk _ hused => exact hapart hfree hk hused
  case usedUp.counted hused _ hfree hk => exact hapart hfree hk hused

theorem settle_eq_iff {taken : List String} {i : Import} {r : Except OutOfRange Import} :
    settle taken i = r ↔ Settles taken i r :=
  ⟨fun h => h ▸ settles_settle taken i, (settles_settle taken i).unique⟩

/-- A plain import of `path` keeps `lastSegment path` unless that is `taken`. -/
theorem settle_plain {taken : List String} {path : String} {j : Import}
    (h : settle taken ⟨path, none⟩ = .ok j) :
    (lastSegment path ∉ taken ∧ j = ⟨path, none⟩) ∨
      (lastSegment path ∈ taken ∧
        ∃ k, j = ⟨path, some (numbered (stem (lastSegment path).toList) k)⟩) := by
  cases settle_eq_iff.1 h with
  | nameless hnone => cases hnone
  | kept hclaim hfree =>
    obtain rfl := Option.some.inj hclaim
    exact .inl ⟨hfree, rfl⟩
  | counted hclaim hmem _ _ =>
    obtain rfl := Option.some.inj hclaim
    exact .inr ⟨hmem, _, rfl⟩

/-- In which order and how often names are `claimed` has no part in `Settles`. -/
theorem Settles.of_mem_iff {claimed claimed' : List String} {i : Import}
    {r : Except OutOfRange Import} (h : Settles claimed i r)
    (hmem : ∀ name, name ∈ claimed ↔ name ∈ claimed') : Settles claimed' i r := by
  cases h with
  | nameless hclaim => exact .nameless hclaim
  | kept hclaim hfree => exact .kept hclaim (mt (hmem _).2 hfree)
  | counted hclaim htaken hnext hk =>
    refine .counted hclaim ((hmem _).1 htaken) ?_ hk
    simpa only [NextFree, hmem] using hnext
  | usedUp hclaim htaken hused =>
    exact .usedUp hclaim ((hmem _).1 htaken) fun k hk hsize => (hmem _).1 (hused k hk hsize)

end Understudy.Import
