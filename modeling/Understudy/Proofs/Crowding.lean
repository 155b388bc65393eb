import Understudy.Proofs.Aggregation

/-!
# Which names are in use in the end

Every name that is claimed is in use after settling, and beside them those that were counted up to.
Which ones that are does not depend on the order of the imports: a number is reached exactly if,
from some number on, more names are claimed over again than there are free numbers before it.

* `Name.Lands`: what settling does to a name that is claimed.
* `Name.Crowded`: a name is claimed, or those below it overflow into it.
* `Name.mem_landed_iff`: the names in use are the crowded ones.
* `Import.mem_claims_iff_crowded`: the same for the imports of a list.
-/

namespace Understudy

namespace Name

/-! ## Names that land somewhere -/

/-- A claimed `name` lands on itself, or, if it is in `used`, on a greater number of its stem such
that all between are in `used`. -/
def Lands (used : List String) (name found : String) : Prop :=
  found = name ∨
    name ∈ used ∧ ∃ k, number name.toList < k ∧ found = numbered (stem name.toList) k ∧
      ∀ j, number name.toList < j → j < k → numbered (stem name.toList) j ∈ used

/-- The claimed names with the stem of `name` and a number from `least` up to that of `name`, which
is left out. -/
def below (claimed : List String) (name : String) (least : Nat) : List String :=
  claimed.filter fun c => stem c.toList = stem name.toList ∧ least ≤ number c.toList ∧
    number c.toList < number name.toList

/-- The numbers between `least` and that of `name` with which its stem is not claimed. -/
def gaps (claimed : List String) (name : String) (least : Nat) : Finset Nat :=
  {k ∈ Finset.Ioo least (number name.toList) | numbered (stem name.toList) k ∉ claimed}

/-- `name` is `claimed`, or those `below` it overflow into it: it is written as names are that were
counted up, and from some number `least` on more names are claimed over again than there are
`gaps`. -/
def Crowded (claimed : List String) (name : String) : Prop :=
  name ∈ claimed ∨
    name = numbered (stem name.toList) (number name.toList) ∧
      ∃ least, (below claimed name least).toFinset.card + (gaps claimed name least).card <
        (below claimed name least).length

section Landed

variable {claimed used : List String}

theorem mem_below {name c : String} {least : Nat} :
    c ∈ below claimed name least ↔
      c ∈ claimed ∧ stem c.toList = stem name.toList ∧ least ≤ number c.toList ∧
        number c.toList < number name.toList := by
  simp [below]

theorem mem_gaps {name : String} {least k : Nat} :
    k ∈ gaps claimed name least ↔
      (least < k ∧ k < number name.toList) ∧ numbered (stem name.toList) k ∉ claimed := by
  simp [gaps]

/-- Where the names of `claimed` with the property `p` land in `used`. -/
def landings (claimed used : List String) (p : String → Bool) : Finset String :=
  (((claimed.zip used).filter fun x => p x.1).map Prod.snd).toFinset

theorem mem_landings {p : String → Bool} {found : String} :
    found ∈ landings claimed used p ↔ ∃ c, (c, found) ∈ claimed.zip used ∧ p c = true := by
  simp [landings]

/-- No two names of `claimed` land on the same name of `used`. -/
theorem card_landings (hlength : claimed.length = used.length) (hnodup : used.Nodup)
    (p : String → Bool) : (landings claimed used p).card = (claimed.filter p).length := by
  have hclaimed : (claimed.zip used).map Prod.fst = claimed := List.map_fst_zip hlength.le
  have hused : (claimed.zip used).map Prod.snd = used := List.map_snd_zip hlength.ge
  have hsublist : (((claimed.zip used).filter fun x => p x.1).map Prod.snd).Sublist used := by
    have := (List.filter_sublist (p := fun x : String × String => p x.1)
      (l := claimed.zip used)).map Prod.snd
    rwa [hused] at this
  rw [landings, List.toFinset_card_of_nodup (hnodup.sublist hsublist), List.length_map]
  conv_rhs => rw [← hclaimed, List.filter_map, List.length_map]
  rfl

theorem card_landings_below (hlength : claimed.length = used.length) (hnodup : used.Nodup)
    (name : String) (least : Nat) :
    (landings claimed used (· ∈ below claimed name least)).card =
      (below claimed name least).length := by
  rw [card_landings hlength hnodup]
  congr 1
  exact List.filter_congr fun c hc => by simp [mem_below, hc]

/-- A `name` that is not `claimed`, those `below` it and its `gaps` are all different. -/
theorem card_insert_below {name : String} (hnot : name ∉ claimed) (least : Nat) :
    (insert name ((below claimed name least).toFinset ∪
      (gaps claimed name least).image (numbered (stem name.toList)))).card =
        (below claimed name least).toFinset.card + (gaps claimed name least).card + 1 := by
  have hdisjoint : Disjoint (below claimed name least).toFinset
      ((gaps claimed name least).image (numbered (stem name.toList))) := by
    rw [Finset.disjoint_left]
    intro c hc himage
    obtain ⟨k, hk, rfl⟩ := Finset.mem_image.1 himage
    exact (mem_gaps.1 hk).2 (mem_below.1 (List.mem_toFinset.1 hc)).1
  rw [Finset.card_insert_of_notMem, Finset.card_union_of_disjoint hdisjoint,
    Finset.card_image_of_injective _ (numbered_injective _)]
  rw [Finset.mem_union, List.mem_toFinset, Finset.mem_image]
  rintro (hbelow | ⟨k, hk, heq⟩)
  · exact hnot (mem_below.1 hbelow).1
  · have hnumber := number_of_numbered_eq heq
    have hlt := (mem_gaps.1 hk).1.2
    omega

/-- The names in use with consecutive numbers up to `n`, back to where the run starts. -/
theorem exists_run_start (used : List String) (cs : List Char) {n : Nat} (hpos : 0 < n) :
    ∃ least < n, (least = 0 ∨ numbered (stem cs) least ∉ used) ∧
      ∀ k, least < k → k < n → numbered (stem cs) k ∈ used := by
  let least := Nat.findGreatest (fun k => numbered (stem cs) k ∉ used) (n - 1)
  have hle : least ≤ n - 1 := Nat.findGreatest_le _
  refine ⟨least, by omega, ?_, fun k hk hkn => ?_⟩
  · by_cases hzero : least = 0
    · exact .inl hzero
    · exact .inr (Nat.findGreatest_of_ne_zero rfl hzero)
  · exact not_not.1 (Nat.findGreatest_is_greatest hk (by omega))

/-- What lands in a run that starts at `least` was claimed with a number of the run. -/
theorem le_number_of_lands {c found : String} {least : Nat} (hlands : Lands used c found)
    (hfound : found ∈ used) (hle : least ≤ number found.toList)
    (hstart : least = 0 ∨ numbered (stem c.toList) least ∉ used) : least ≤ number c.toList := by
  rcases hlands with rfl | ⟨-, k, hk, rfl, hbetween⟩
  · exact hle
  · rw [number_numbered] at hle
    by_contra hlt
    rw [not_le] at hlt
    -- else counting up has passed the start of the run
    have hin : numbered (stem c.toList) least ∈ used := by
      rcases Nat.eq_or_lt_of_le hle with rfl | hlt'
      · exact hfound
      · exact hbetween least hlt hlt'
    rcases hstart with rfl | hnot
    · exact Nat.not_lt_zero _ hlt
    · exact hnot hin

variable (hlands : List.Forall₂ (Lands used) claimed used)

include hlands

theorem mem_used_of_mem_claimed {name : String} (h : name ∈ claimed) : name ∈ used := by
  obtain ⟨found, hfound, rfl | ⟨hmem, -⟩⟩ := Outcome.exists_of_forall₂ hlands h
  · exact hfound
  · exact hmem

theorem lands_of_mem_zip {c found : String} (h : (c, found) ∈ claimed.zip used) :
    Lands used c found :=
  (List.forall₂_iff_zip.1 hlands).2 h

theorem exists_mem_zip {found : String} (h : found ∈ used) :
    ∃ c, (c, found) ∈ claimed.zip used := by
  have hused : (claimed.zip used).map Prod.snd = used := List.map_snd_zip hlands.length_eq.ge
  rw [← hused] at h
  obtain ⟨⟨c, _⟩, hc, rfl⟩ := List.mem_map.1 h
  exact ⟨c, hc⟩

/-- If `name` is not in `used`, those `below` it land on each other and in the `gaps`. -/
theorem landings_subset {name : String}
    (hname : name = numbered (stem name.toList) (number name.toList)) (hnot : name ∉ used)
    (least : Nat) :
    landings claimed used (· ∈ below claimed name least) ⊆
      (below claimed name least).toFinset ∪
        (gaps claimed name least).image (numbered (stem name.toList)) := by
  intro found hfound
  obtain ⟨c, hzip, hc⟩ := mem_landings.1 hfound
  rw [decide_eq_true_iff] at hc
  rw [Finset.mem_union, List.mem_toFinset, Finset.mem_image]
  have hused : found ∈ used := (List.of_mem_zip hzip).2
  obtain ⟨hclaimed, hstem, hleast, hlt⟩ := mem_below.1 hc
  rcases lands_of_mem_zip hlands hzip with rfl | ⟨-, k, hk, rfl, hbetween⟩
  · exact .inl hc
  · rw [hstem] at hused hbetween ⊢
    -- counting up does not pass a name that is not in use
    have hkn : k < number name.toList := by
      rcases Nat.lt_trichotomy k (number name.toList) with h | rfl | h
      · exact h
      · exact absurd (hname ▸ hused) hnot
      · exact absurd (hname ▸ hbetween _ hlt h) hnot
    by_cases hin : numbered (stem name.toList) k ∈ claimed
    · refine .inl (mem_below.2 ⟨hin, ?_⟩)
      rw [stem_numbered, number_numbered]
      exact ⟨rfl, by omega, hkn⟩
    · exact .inr ⟨k, mem_gaps.2 ⟨⟨by omega, hkn⟩, hin⟩, rfl⟩

/-- If `name` is in `used` though it is not `claimed`, names `below` it land on it and on all of the
run before it. -/
theorem mem_landings_below {name : String} (hnot : name ∉ claimed) {least : Nat}
    (hstart : least = 0 ∨ numbered (stem name.toList) least ∉ used) {found : String}
    (hfound : found ∈ used) (hstem : stem found.toList = stem name.toList)
    (hle : least ≤ number found.toList)
    (hlt : number found.toList < number name.toList ∨ found = name) :
    found ∈ landings claimed used (· ∈ below claimed name least) := by
  obtain ⟨c, hzip⟩ := exists_mem_zip hlands hfound
  have hclaimed : c ∈ claimed := (List.of_mem_zip hzip).1
  have hland := lands_of_mem_zip hlands hzip
  have hcstem : stem c.toList = stem name.toList := by
    rcases hland with rfl | ⟨-, k, -, rfl, -⟩
    · exact hstem
    · rwa [stem_numbered] at hstem
  have hclt : number c.toList < number name.toList := by
    rcases hland with rfl | ⟨-, k, hk, rfl, -⟩
    · refine hlt.resolve_right ?_
      rintro rfl
      exact hnot hclaimed
    · rw [number_numbered] at hlt
      rcases hlt with hlt | rfl
      · omega
      · rwa [number_numbered]
  rw [← hcstem] at hstart
  refine mem_landings.2 ⟨c, hzip, decide_eq_true ?_⟩
  exact mem_below.2 ⟨hclaimed, hcstem, le_number_of_lands hland hfound hle hstart, hclt⟩

/-- A `name` that is in `used` without being `claimed` was counted up to. -/
theorem numbered_of_mem_used {name : String} (hnot : name ∉ claimed) (hmem : name ∈ used) :
    name = numbered (stem name.toList) (number name.toList) ∧ 0 < number name.toList := by
  obtain ⟨c, hzip⟩ := exists_mem_zip hlands hmem
  rcases lands_of_mem_zip hlands hzip with rfl | ⟨-, k, hk, rfl, -⟩
  · exact absurd (List.of_mem_zip hzip).1 hnot
  · rw [stem_numbered, number_numbered]
    exact ⟨rfl, by omega⟩

/-- The names in `used` in the end are those that are `Crowded`. -/
theorem mem_landed_iff (hnodup : used.Nodup) {name : String} :
    name ∈ used ↔ Crowded claimed name := by
  constructor
  · intro hmem
    by_cases hclaimed : name ∈ claimed
    · exact .inl hclaimed
    obtain ⟨hname, hpos⟩ := numbered_of_mem_used hlands hclaimed hmem
    obtain ⟨least, hlt, hstart, hrun⟩ := exists_run_start used name.toList hpos
    refine .inr ⟨hname, least, ?_⟩
    rw [← card_landings_below hlands.length_eq hnodup, Nat.lt_iff_add_one_le,
      ← card_insert_below hclaimed]
    refine Finset.card_le_card fun found hfound => ?_
    simp only [Finset.mem_insert, Finset.mem_union, List.mem_toFinset, Finset.mem_image] at hfound
    rcases hfound with rfl | hbelow | ⟨k, hgap, rfl⟩
    · exact mem_landings_below hlands hclaimed hstart hmem rfl hlt.le (.inr rfl)
    · obtain ⟨hfound, hstem, hle, hlt⟩ := mem_below.1 hbelow
      exact mem_landings_below hlands hclaimed hstart (mem_used_of_mem_claimed hlands hfound) hstem
        hle (.inl hlt)
    · obtain ⟨⟨hk, hkn⟩, -⟩ := mem_gaps.1 hgap
      refine mem_landings_below hlands hclaimed hstart (hrun k hk hkn) (stem_numbered _ k) ?_ ?_
      · rw [number_numbered]; exact hk.le
      · rw [number_numbered]; exact .inl hkn
  · rintro (hclaimed | ⟨hname, least, hlt⟩)
    · exact mem_used_of_mem_claimed hlands hclaimed
    by_contra hnot
    have hle := Finset.card_le_card (landings_subset hlands hname hnot least)
    rw [card_landings_below hlands.length_eq hnodup] at hle
    have hunion := Finset.card_union_le (below claimed name least).toFinset
      ((gaps claimed name least).image (numbered (stem name.toList)))
    have himage := Finset.card_image_le (s := gaps claimed name least)
      (f := numbered (stem name.toList))
    omega

end Landed

/-- If all names of `claimed` differ, they land on themselves and no other name is `Crowded`. -/
theorem not_crowded_of_nodup {claimed : List String} (hnodup : claimed.Nodup) {name : String}
    (hnot : name ∉ claimed) : ¬ Crowded claimed name := by
  rintro (hmem | ⟨-, least, hlt⟩)
  · exact hnot hmem
  · have hbelow : (below claimed name least).Nodup := hnodup.filter _
    rw [List.toFinset_card_of_nodup hbelow] at hlt
    omega

/-- A `name` that does not end in a `numeral` is not counted up to. -/
theorem crowded_iff_mem {claimed : List String} {name : String} (h : numeral name.toList = []) :
    Crowded claimed name ↔ name ∈ claimed := by
  refine or_iff_left ?_
  rintro ⟨hname, -⟩
  rw [hname] at h
  exact numeral_numbered_ne_nil _ _ h

end Name

namespace Import

/-! ## Imports -/

open Name (Crowded Lands)

/-- One step: what `i` claims lands where `settle` ends. -/
theorem lands_of_settle {taken used : List String} {i j : Import} (h : settle taken i = .ok j)
    (htaken : taken ⊆ used) :
    (i.claim? = none ∧ j.claim? = none) ∨
      ∃ name found, i.claim? = some name ∧ j.claim? = some found ∧ Lands used name found := by
  cases settle_eq_iff.1 h with
  | nameless hclaim => exact .inl ⟨hclaim, hclaim⟩
  | kept hclaim _ => exact .inr ⟨_, _, hclaim, hclaim, .inl rfl⟩
  | counted hclaim hmem hnext _ =>
    refine .inr ⟨_, _, hclaim, claim?_numbered _ _ _, .inr ⟨htaken hmem, _, hnext.1.1, rfl, ?_⟩⟩
    intro k hk hlt
    by_contra hnot
    exact absurd (hnext.2 ⟨hk, fun hin => hnot (htaken hin)⟩) hlt.not_ge

/-- A run: what the imports of `l` claim lands where `settleAll` ends, one after the other. -/
theorem lands_of_settleAll {taken used : List String} {l result : List Import}
    (h : settleAll taken l = .ok result) (htaken : taken ⊆ used)
    (hused : result.filterMap claim? ⊆ used) :
    List.Forall₂ (Lands used) (l.filterMap claim?) (result.filterMap claim?) := by
  induction l generalizing taken result with
  | nil =>
    obtain rfl := Except.ok.inj h
    exact .nil
  | cons i l ih =>
    obtain ⟨j, rest, hj, hrest, rfl⟩ := settleAll_cons_eq_ok_iff.1 h
    rcases lands_of_settle hj htaken with ⟨hi, hj'⟩ | ⟨name, found, hi, hj', hlands⟩
    · rw [List.filterMap_cons_none hj'] at hused
      rw [List.filterMap_cons_none hi, List.filterMap_cons_none hj']
      refine ih hrest ?_ hused
      rw [hj']
      exact htaken
    · rw [List.filterMap_cons_some hj', List.cons_subset] at hused
      rw [List.filterMap_cons_some hi, List.filterMap_cons_some hj']
      refine .cons hlands (ih hrest ?_ hused.2)
      rw [hj', Option.toList_some, List.singleton_append, List.cons_subset]
      exact ⟨hused.1, htaken⟩

/-- Which names the imports of `l` claim after `settleAll`, by what they claimed before. -/
theorem mem_claims_iff_crowded {l result : List Import} (h : settleAll [] l = .ok result)
    {name : String} : name ∈ result.filterMap claim? ↔ Crowded (l.filterMap claim?) name :=
  Name.mem_landed_iff (lands_of_settleAll h (List.nil_subset _) (List.Subset.refl _))
    (settleAll_ok h).2.1

example : Crowded ["x2", "x2", "x4"] "x3" := .inr ⟨by decide +kernel, 2, by decide +kernel⟩

end Import

end Understudy
