import Mathlib.Data.Nat.Digits.Defs
import Understudy.Proofs.Numbering

/-!
# The names that follow a name

A name is taken apart behind its last character that is no digit. Counting it up keeps what stands
before and writes the next number behind it, without the zeros that the old one may have begun with.
So the second name in a row has its number in the shortest form, whatever the first looked like, and
each further one has a greater number: no name comes twice.

* `Name.Splits`: a name taken apart, and `Name.exists_splits`, `Name.Splits.numeral_eq`: in one way.
* `Name.value`: what digits stand for, place by place.
* `Name.number_incrementTimes`: the number of each name in a row.
* `Name.increment_writes_next`: what counting up gives, and that names in a row differ.
-/

namespace Understudy.Name

variable {name p d : String}

/-! ## Taking a name apart -/

/-- The name is `p` with the digits `d` behind it, and `p` does not end in a digit. -/
structure Splits (name p d : String) : Prop where
  eq_append : name = p ++ d
  digits : ∀ c ∈ d.toList, '0' ≤ c ∧ c ≤ '9'
  maximal : ∀ c, p.toList.getLast? = some c → ¬ ('0' ≤ c ∧ c ≤ '9')

theorem isDigit_iff {c : Char} : c.isDigit = true ↔ '0' ≤ c ∧ c ≤ '9' := by
  rw [Char.isDigit, Bool.and_eq_true, decide_eq_true_iff, decide_eq_true_iff]
  rfl

/-- Digits `d` behind a text `p` that does not end in one are the `numeral`. -/
theorem Splits.numeral_eq (h : Splits name p d) : numeral name.toList = d.toList := by
  have hdigits : ∀ c ∈ d.toList.reverse, c.isDigit = true :=
    fun c hc => isDigit_iff.2 (h.digits c (List.mem_reverse.1 hc))
  have hstop : p.toList.reverse.takeWhile Char.isDigit = [] := by
    cases hp : p.toList.reverse with
    | nil => rfl
    | cons c cs =>
      refine List.takeWhile_cons_of_neg fun hdigit => h.maximal c ?_ (isDigit_iff.1 hdigit)
      rw [← List.head?_reverse, hp, List.head?_cons]
  rw [numeral, h.eq_append, String.toList_append, List.reverse_append,
    List.takeWhile_append_of_pos hdigits, hstop, List.append_nil, List.reverse_reverse]

theorem Splits.stem_eq (h : Splits name p d) : stem name.toList = p.toList := by
  have happend := stem_append_numeral name.toList
  rw [h.numeral_eq, h.eq_append, String.toList_append] at happend
  rw [h.eq_append, String.toList_append]
  exact List.append_cancel_right happend

theorem exists_splits (name : String) : ∃ p d, Splits name p d := by
  refine ⟨String.ofList (stem name.toList), String.ofList (numeral name.toList), ?_, ?_, ?_⟩
  · rw [← String.ofList_append, stem_append_numeral, String.ofList_toList]
  · intro c hc
    rw [String.toList_ofList, numeral, List.mem_reverse] at hc
    exact isDigit_iff.1 (List.mem_takeWhile_imp hc)
  · intro c hc hdigit
    rw [String.toList_ofList, stem, List.getLast?_reverse] at hc
    have hstop := List.head?_dropWhile_not Char.isDigit name.toList.reverse
    rw [hc] at hstop
    exact Bool.eq_false_iff.1 hstop (isDigit_iff.2 hdigit)

/-! ## Numbers -/

/-- The number that the digits `d` stand for. The last of them counts ones, the one before it tens,
and so on. -/
def value (d : String) : Nat :=
  Nat.ofDigits 10 (d.toList.reverse.map fun c => c.toNat - '0'.toNat)

theorem ofDigitChars_eq_value (d : String) : Nat.ofDigitChars 10 d.toList 0 = value d := by
  rw [value]
  induction d.toList using List.reverseRecOn with
  | nil => rfl
  | append_singleton ds c ih =>
    rw [Nat.ofDigitChars_append, ih, List.reverse_append, List.map_append, List.reverse_singleton,
      List.map_singleton, List.singleton_append, Nat.ofDigits_cons, Nat.add_comm]
    rfl

theorem numbered_stem (h : Splits name p d) (n : Nat) :
    numbered (stem name.toList) n = p ++ toString n := by
  rw [numbered, h.stem_eq, String.ofList_append, String.ofList_toList, Nat.toString_eq_repr,
    ← Nat.toList_repr, String.ofList_toList]

/-! ## Names in a row -/

/-- `name` counted up so many times, unless one on the way has no next. -/
def incrementTimes (name : String) : Nat → Except OutOfRange String
  | 0 => .ok name
  | n + 1 => incrementTimes name n >>= increment

/-- Each of the `n` steps adds one to the number, also the first, which may change how it is
written. -/
theorem number_incrementTimes {n : Nat} {found : String} (h : incrementTimes name n = .ok found) :
    number found.toList = number name.toList + n := by
  induction n generalizing found with
  | zero =>
    obtain rfl := Except.ok.inj h
    rfl
  | succ n ih =>
    rw [incrementTimes] at h
    cases hn : incrementTimes name n with
    | error e =>
      rw [hn] at h
      cases h
    | ok before =>
      rw [hn] at h
      obtain ⟨-, rfl⟩ := increment_eq_ok_iff.1 h
      rw [number_numbered, ih hn, Nat.add_assoc]

/-- A name without digits at its end gets a `2`. Digits at its end are replaced by the next number,
unless that has more than 64 bits, in which case the error shows them. The names in a row differ,
as far as it goes. -/
theorem increment_writes_next (name : String) :
    (∃ p d, Splits name p d) ∧
    (∀ p d, Splits name p d →
      increment name =
        if d = "" then .ok (p ++ "2")
        else if value d < 2 ^ 64 - 1 then .ok (p ++ toString (value d + 1))
        else .error ⟨d⟩) ∧
    ∀ m n x y, m ≠ n → incrementTimes name m = .ok x → incrementTimes name n = .ok y → x ≠ y := by
  refine ⟨exists_splits name, ?_, ?_⟩
  · intro p d h
    rw [increment_eq, numbered_stem h, h.numeral_eq, String.ofList_toList]
    by_cases hd : d = ""
    · have hnumber : number name.toList = 1 :=
        number_of_numeral_eq_nil (by rw [h.numeral_eq, hd]; rfl)
      rw [if_pos hd, hnumber, if_pos (by decide)]
      rfl
    · have hne : numeral name.toList ≠ [] := by
        rw [h.numeral_eq]
        exact fun hnil => hd (String.toList_eq_nil_iff.1 hnil)
      have hnumber : number name.toList = value d := by
        rw [number_of_numeral_ne_nil hne, h.numeral_eq, ofDigitChars_eq_value]
      have hsize : value d + 1 < UInt64.size ↔ value d < 2 ^ 64 - 1 := by
        have hbits : UInt64.size = 2 ^ 64 := rfl
        omega
      rw [if_neg hd, hnumber]
      simp only [hsize]
  · rintro m n x y hmn hx hy rfl
    have hm := number_incrementTimes hx
    have hn := number_incrementTimes hy
    omega

/-- The name `größe007` has zeros before its number, and letters of more than one byte before
these. -/
theorem splits_zeros : Splits "größe007" "größe" "007" where
  eq_append := rfl
  digits c hc := by
    rcases List.mem_cons.1 hc with rfl | hc
    · exact ⟨by decide, by decide⟩
    · rcases List.mem_cons.1 hc with rfl | hc
      · exact ⟨by decide, by decide⟩
      · obtain rfl := List.mem_singleton.1 hc
        exact ⟨by decide, by decide⟩
  maximal c hc := by
    obtain rfl : 'e' = c := Option.some.inj hc
    decide

/-- The zeros of `größe007` are lost with the first step, and the names in the row go on from
there. -/
theorem increment_writes_next_zeros :
    Splits "größe007" "größe" "007" ∧ increment "größe007" = .ok "größe8" ∧
      incrementTimes "größe007" 1 = .ok "größe8" ∧ incrementTimes "größe007" 2 = .ok "größe9" ∧
      "größe8" ≠ "größe9" := by
  obtain ⟨-, hnext, hdiffer⟩ := increment_writes_next "größe007"
  have hone : incrementTimes "größe007" 1 = .ok "größe8" := by rfl
  have htwo : incrementTimes "größe007" 2 = .ok "größe9" := by rfl
  refine ⟨splits_zeros, ?_, hone, htwo, hdiffer 1 2 _ _ (by decide) hone htwo⟩
  rw [hnext _ _ splits_zeros]
  rfl

end Understudy.Name
