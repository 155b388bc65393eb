import Mathlib.Data.List.DropRight
import Mathlib.Data.List.TakeWhile
import Understudy.Name

/-!
# Names counted up

A name is a stem with a number behind it; a name without digits counts as the first of its stem.

* `Name.stem_numbered`, `Name.number_numbered`: stem and number are read back from a numbered name.
* `Name.increment_eq`: counting up keeps the stem and adds one to the number, up to 64 bits.
-/

namespace Understudy.Name

/-- The number of the name `cs`. A name without digits counts as the first. -/
def number (cs : List Char) : Nat :=
  match numeral cs with
  | [] => 1
  | ds => Nat.ofDigitChars 10 ds 0

theorem number_of_numeral_eq_nil {cs : List Char} (h : numeral cs = []) : number cs = 1 := by
  rw [number, h]

theorem number_of_numeral_ne_nil {cs : List Char} (h : numeral cs ≠ []) :
    number cs = Nat.ofDigitChars 10 (numeral cs) 0 := by
  rw [number]
  split
  · rename_i hn; exact absurd hn h
  · rfl

/-- The name with the stem `stem` and the number `n`. -/
def numbered (stem : List Char) (n : Nat) : String :=
  String.ofList (stem ++ Nat.toDigits 10 n)

theorem stem_append_numeral (cs : List Char) : stem cs ++ numeral cs = cs := by
  rw [stem, numeral, ← List.reverse_append, List.takeWhile_append_dropWhile, List.reverse_reverse]

/-- `stem cs` does not end in a digit, so digits behind it are read as the number alone. -/
theorem dropWhile_reverse_stem (cs : List Char) :
    (stem cs).reverse.dropWhile Char.isDigit = (stem cs).reverse := by
  rw [stem, List.reverse_reverse, List.dropWhile_idempotent]

theorem stem_append_digits {cs ds : List Char} (hd : ∀ c ∈ ds, c.isDigit = true) :
    stem (stem cs ++ ds) = stem cs := by
  have hr : ∀ c ∈ ds.reverse, c.isDigit = true := fun c hc => hd c (List.mem_reverse.1 hc)
  rw [stem, List.reverse_append, List.dropWhile_append_of_pos hr, dropWhile_reverse_stem,
    List.reverse_reverse]

theorem numeral_append_digits {cs ds : List Char} (hd : ∀ c ∈ ds, c.isDigit = true) :
    numeral (stem cs ++ ds) = ds := by
  have h := stem_append_numeral (stem cs ++ ds)
  rw [stem_append_digits hd] at h
  exact List.append_cancel_left h

theorem isDigit_of_mem_toDigits {n : Nat} {c : Char} (h : c ∈ Nat.toDigits 10 n) :
    c.isDigit = true :=
  Nat.isDigit_of_mem_toDigits (by decide) (by decide) h

@[simp] theorem stem_numbered (cs : List Char) (n : Nat) :
    stem (numbered (stem cs) n).toList = stem cs := by
  rw [numbered, String.toList_ofList, stem_append_digits fun _ => isDigit_of_mem_toDigits]

@[simp] theorem number_numbered (cs : List Char) (n : Nat) :
    number (numbered (stem cs) n).toList = n := by
  have hn : numeral (numbered (stem cs) n).toList = Nat.toDigits 10 n := by
    rw [numbered, String.toList_ofList, numeral_append_digits fun _ => isDigit_of_mem_toDigits]
  rw [number_of_numeral_ne_nil (by rw [hn]; exact Nat.toDigits_ne_nil), hn]
  exact Nat.ofDigitChars_ten_toDigits

theorem number_of_numbered_eq {cs : List Char} {n : Nat} {name : String}
    (h : numbered (stem cs) n = name) : number name.toList = n := by
  rw [← h, number_numbered]

theorem numbered_injective (cs : List Char) : Function.Injective (numbered (stem cs)) := by
  intro n m h
  rw [← number_of_numbered_eq h, number_numbered]

/-- `numbered stem n` has a digit, so it is none of the aliases with a meaning of their own. -/
theorem exists_isDigit_numbered (stem : List Char) (n : Nat) :
    ∃ c ∈ (numbered stem n).toList, c.isDigit = true := by
  obtain ⟨c, cs, h⟩ := List.exists_cons_of_ne_nil (Nat.toDigits_ne_nil (n := n) (b := 10))
  refine ⟨c, ?_, isDigit_of_mem_toDigits (n := n) (by rw [h]; exact List.mem_cons_self)⟩
  rw [numbered, String.toList_ofList, h]
  simp

theorem numbered_ne (stem : List Char) (n : Nat) {s : String}
    (hs : s.toList.any Char.isDigit = false) : numbered stem n ≠ s := by
  rintro rfl
  obtain ⟨c, hc, hd⟩ := exists_isDigit_numbered stem n
  exact List.any_eq_false.1 hs c hc hd

theorem numeral_numbered_ne_nil (stem : List Char) (n : Nat) :
    numeral (numbered stem n).toList ≠ [] := by
  have hdigits : ∀ c ∈ (Nat.toDigits 10 n).reverse, c.isDigit = true :=
    fun c hc => isDigit_of_mem_toDigits (List.mem_reverse.1 hc)
  rw [numeral, numbered, String.toList_ofList, List.reverse_append,
    List.takeWhile_append_of_pos hdigits]
  simp [Nat.toDigits_ne_nil]

/-- `increment` keeps the `stem` and adds one to the `number`. -/
theorem increment_eq (name : String) :
    increment name =
      if number name.toList + 1 < UInt64.size then
        .ok (numbered (stem name.toList) (number name.toList + 1))
      else .error ⟨String.ofList (numeral name.toList)⟩ := by
  cases hn : numeral name.toList with
  | nil =>
    have hs := stem_append_numeral name.toList
    rw [hn, List.append_nil] at hs
    rw [number_of_numeral_eq_nil hn, if_pos (by decide), hs]
    simp only [increment, hn]
    have h2 : Nat.toDigits 10 (1 + 1) = ['2'] := rfl
    rw [numbered, h2, String.ofList_append, String.ofList_toList]
  | cons d ds =>
    rw [number_of_numeral_ne_nil (by rw [hn]; simp), hn]
    simp only [increment, hn]
    rfl

/-- `next` has the `stem` of `name` and the next `number`. -/
theorem increment_eq_ok_iff {name next : String} :
    increment name = .ok next ↔
      number name.toList + 1 < UInt64.size ∧
        next = numbered (stem name.toList) (number name.toList + 1) := by
  rw [increment_eq]
  split
  · rename_i hlt
    rw [Except.ok.injEq, eq_comm, and_iff_right hlt]
  · rename_i hge
    constructor
    · intro h; cases h
    · intro h; exact absurd h.1 hge

theorem increment_eq_error_iff {name : String} {e : OutOfRange} :
    increment name = .error e ↔
      UInt64.size ≤ number name.toList + 1 ∧ e = ⟨String.ofList (numeral name.toList)⟩ := by
  rw [increment_eq]
  split
  · rename_i hlt
    constructor
    · intro h; cases h
    · intro h; exact absurd hlt (Nat.not_lt.2 h.1)
  · rename_i hge
    rw [Except.error.injEq, eq_comm, and_iff_right (Nat.le_of_not_lt hge)]

theorem number_lt_increment {name next : String} (h : increment name = .ok next) :
    number name.toList < number next.toList := by
  rw [(increment_eq_ok_iff.1 h).2, number_numbered]
  exact Nat.lt_succ_self _

end Understudy.Name
