import Mathlib.Data.List.Basic
import Understudy.Document.Word

/-!
# Values that are data

Of the values of a document, those that a format can hold and that stand for something: nothing in
them is left open or unfit. What is done to a value before it is decoded does nothing to them.

* `Value.Data`: such values, with a bound on how deep they are.
* `Data.bounded_eq`, `Data.resolve_eq`, `Data.isFit`: they are not too deep, nothing about them is
  left to decide, and every part is fit.
-/

namespace Understudy.Document

/-- Values with everything in them decided and fit, numbers of 64 bits, and at most `levels` lists
and records inside one another. -/
inductive Value.Data : (levels : Nat) → Value → Prop
  | null {n : Nat} : Data n .null
  | bool {n : Nat} (b : Bool) : Data n (.bool b)
  | nat {n : Nat} {k : Nat} (h : k < UInt64.size) : Data n (.nat k)
  | text {n : Nat} (s : String) : Data n (.text s)
  | list {n : Nat} {items : List Value} (h : ∀ v ∈ items, Data n v) : Data (n + 1) (.list items)
  | record {n : Nat} {entries : List (String × Value)} (h : ∀ e ∈ entries, Data n e.2) :
    Data (n + 1) (.record entries)

namespace Value

attribute [simp] Data.null Data.bool Data.text

@[simp] theorem data_list_iff {n : Nat} {items : List Value} :
    Data (n + 1) (.list items) ↔ ∀ v ∈ items, Data n v :=
  ⟨fun | .list h => h, .list⟩

@[simp] theorem data_record_iff {n : Nat} {entries : List (String × Value)} :
    Data (n + 1) (.record entries) ↔ ∀ e ∈ entries, Data n e.2 :=
  ⟨fun | .record h => h, .record⟩

theorem boundedItems_eq_map (items : List Value) (n : Nat) :
    boundedItems items n = items.map (·.bounded n) := by
  induction items with
  | nil => rfl
  | cons v vs ih => rw [boundedItems, ih, List.map_cons]

theorem boundedEntries_eq_map (entries : List (String × Value)) (n : Nat) :
    boundedEntries entries n = entries.map fun e => (e.1, e.2.bounded n) := by
  induction entries with
  | nil => rfl
  | cons e es ih => rw [boundedEntries, ih, List.map_cons]

/-- `v.bounded n` keeps data of depth `n` as it is. -/
theorem Data.bounded_eq {n : Nat} {v : Value} (h : v.Data n) : v.bounded n = v := by
  induction h with
  | null | bool | nat | text => rw [bounded] <;> simp
  | @list n items _ ih =>
    rw [bounded, boundedItems_eq_map, List.map_congr_left ih, List.map_id']
  | @record n entries _ ih =>
    have hentries : entries.map (fun e => (e.1, e.2.bounded n)) = entries.map id :=
      List.map_congr_left fun e he => by rw [ih e he]; rfl
    rw [bounded, boundedEntries_eq_map, hentries, List.map_id]

theorem resolveItems_eq_map (items : List Value) : resolveItems items = items.map resolve := by
  induction items with
  | nil => rfl
  | cons v vs ih => rw [resolveItems, ih, List.map_cons]

theorem resolveEntries_eq_map (entries : List (String × Value)) :
    resolveEntries entries = entries.map fun e => (e.1, e.2.resolve) := by
  induction entries with
  | nil => rfl
  | cons e es ih => rw [resolveEntries, ih, List.map_cons]

theorem isFitItems_iff {items : List Value} :
    isFitItems items = true ↔ ∀ v ∈ items, v.isFit = true := by
  induction items with
  | nil => simp [isFitItems]
  | cons v vs ih => simp [isFitItems, ih]

theorem isFitEntries_iff {entries : List (String × Value)} :
    isFitEntries entries = true ↔ ∀ e ∈ entries, e.2.isFit = true := by
  induction entries with
  | nil => simp [isFitEntries]
  | cons e es ih => simp [isFitEntries, ih]

/-- `v.resolve` finds nothing in data that is left open. -/
theorem Data.resolve_eq {n : Nat} {v : Value} (h : v.Data n) : v.resolve = v := by
  induction h with
  | null | bool | nat | text => rw [resolve] <;> simp
  | @list _ items _ ih => rw [resolve, resolveItems_eq_map, List.map_congr_left ih, List.map_id']
  | @record _ entries _ ih =>
    have hentries : entries.map (fun e => (e.1, e.2.resolve)) = entries.map id :=
      List.map_congr_left fun e he => by rw [ih e he]; rfl
    rw [resolve, resolveEntries_eq_map, hentries, List.map_id]

theorem Data.isFit {n : Nat} {v : Value} (h : v.Data n) : v.isFit = true := by
  induction h with
  | null | bool | nat | text => rw [Value.isFit] <;> simp
  | list _ ih => rw [Value.isFit]; exact isFitItems_iff.2 ih
  | record _ ih => rw [Value.isFit]; exact isFitEntries_iff.2 ih

end Value

end Understudy.Document
