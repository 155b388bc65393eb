import Understudy.Codec.Types
import Understudy.Proofs.DocumentData
import Understudy.Proofs.Outcome

/-!
# Laws of decoders

What decoders make of the values that encoders write, whatever the data.

* `fields_record`: a record with all its keys in order holds the values of all its fields.
* `list_encodeList`, `optional_encodeOption`: a decoder that undoes an encoder does so inside a list
  and for a value that may be unset.
-/

namespace Understudy.Codec

open Document (Value)
open Document.Value (Data)

namespace Decoder

variable {α : Type}

/-! ## Single values -/

@[simp] theorem text_text (s : String) : text (.text s) = some s := by rw [text]

@[simp] theorem bool_bool (b : Bool) : bool (.bool b) = some b := by rw [bool]

@[simp] theorem uint32_encodeId (id : UInt32) : uint32 (encodeId id) = some id := by
  have h : id.toNat < UInt32.size := id.toNat_lt_size
  simp [uint32, encodeId, nat, h]

@[simp] theorem uint64_nat (n : UInt64) : uint64 (.nat n.toNat) = some n := by
  have h : n.toNat < UInt64.size := n.toNat_lt_size
  simp [uint64, nat, h]

@[simp] theorem data_encodeId (n : Nat) (id : UInt32) : Data n (encodeId id) :=
  .nat (Nat.lt_trans id.toNat_lt_size (by decide))

@[simp] theorem data_nat_uint64 (n : Nat) (k : UInt64) : Data n (.nat k.toNat) :=
  .nat k.toNat_lt_size

/-- No `a` that is set may be written by `e` as if it were not. -/
theorem optional_encodeOption {d : Decoder α} {e : α → Value} (h : ∀ a, d (e a) = some a)
    (hset : ∀ a, optional d (e a) = some <$> d (e a)) (a : Option α) :
    optional d (encodeOption e a) = some a := by
  cases a with
  | none => rfl
  | some a => rw [encodeOption, hset, h]; rfl

@[simp] theorem optional_encodeOption_text (s : Option String) :
    optional text (encodeOption .text s) = some s :=
  optional_encodeOption text_text (fun _ => rfl) s

@[simp] theorem optional_encodeOption_encodeId (id : Option UInt32) :
    optional uint32 (encodeOption encodeId id) = some id :=
  optional_encodeOption uint32_encodeId (fun _ => rfl) id

@[simp] theorem data_encodeOption {n : Nat} {e : α → Value} (h : ∀ a, Data n (e a)) (a : Option α) :
    Data n (encodeOption e a) := by
  cases a with
  | none => exact .null
  | some a => exact h a

@[simp] theorem list_encodeList {d : Decoder α} {e : α → Value} (h : ∀ a, d (e a) = some a)
    (items : List α) : list d (encodeList e items) = some items := by
  have hitems : (items.map e).mapM d = some (items.map id) :=
    Outcome.mapM_map_eq_some fun a _ => h a
  rwa [List.map_id] at hitems

@[simp] theorem data_encodeList {n : Nat} {e : α → Value} (h : ∀ a, Data n (e a)) (items : List α) :
    Data (n + 1) (encodeList e items) := by
  simp [encodeList, h]

/-! ## Records -/

@[simp] theorem required_some (d : Decoder α) (v : Value) : required d (some v) = d v := rfl

@[simp] theorem defaulted_some (a : α) (d : Decoder α) (v : Value) :
    defaulted a d (some v) = d v := rfl

@[simp] theorem defaulted_none (a : α) (d : Decoder α) : defaulted a d none = some a := rfl

theorem field?_of_mem {es : List (String × Value)} (hes : (es.map Prod.fst).Nodup)
    {e : String × Value} (he : e ∈ es) : field? es e.1 = some (some e.2) := by
  induction es with
  | nil => cases he
  | cons a as ih =>
    obtain ⟨ha, has⟩ := List.nodup_cons.1 hes
    have hfresh : ∀ b ∈ as, b.1 ≠ a.1 := fun b hb h => ha (List.mem_map.2 ⟨b, hb, h⟩)
    rcases List.mem_cons.1 he with rfl | he
    · have hrest : as.filter (·.1 = e.1) = [] := by simpa using hfresh
      simp [field?, hrest]
    · have hne : a.1 ≠ e.1 := (hfresh e he).symm
      simpa [field?, hne] using ih has he

/-- A record `es` with all its `keys`, in order. -/
@[simp] theorem fields_record {keys : List String} {es : List (String × Value)}
    (hkeys : es.map Prod.fst = keys) (hnodup : keys.Nodup) :
    fields keys (.record es) = some (es.map fun e => some e.2) := by
  subst hkeys
  exact Outcome.mapM_map_eq_some fun e he => field?_of_mem hnodup he

end Decoder

end Understudy.Codec
