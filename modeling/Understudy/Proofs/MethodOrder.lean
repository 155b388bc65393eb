import Understudy.Proofs.Methods

/-!
# The arrangement of methods

An extraction describes all methods of the listed interfaces, in the order of the interfaces and
then of their declarations. Of the descriptions with one signature it keeps the first, and sorts
what it keeps by position. Since the sort is stable, methods of one position stay in the order in
which they were described.

* `Position.le_iff`: positions compare by file, then line, then column.
* `Mock.Method.filter_distinct`: of each signature the first method is kept, and no other.
* `Extract.Arranged`: how the methods of an interface come from the descriptions.
* `Extract.interface_methods_arranged`: an extraction arranges what it described, whatever the
  qualifier.
-/

namespace Understudy

namespace Position

theorem le_iff {p q : Position} :
    p.le q = true ↔
      p.file < q.file ∨ p.file = q.file ∧
        (p.line < q.line ∨ p.line = q.line ∧ p.column ≤ q.column) := by
  have hcompare : compare p q =
      ((compare p.file q.file).then (compare p.line q.line)).then (compare p.column q.column) := rfl
  rw [le, hcompare, Ordering.then_assoc, Ordering.isLE_then_iff_or, Ordering.isLE_then_iff_or,
    Std.compare_eq_lt, Std.compare_eq_lt, Std.compare_eq_iff_eq, Std.compare_eq_iff_eq,
    Std.isLE_compare]

theorem le_refl (p : Position) : p.le p = true :=
  le_iff.2 (.inr ⟨rfl, .inr ⟨rfl, UInt32.le_refl _⟩⟩)

theorem le_trans {p q r : Position} (hpq : p.le q = true) (hqr : q.le r = true) :
    p.le r = true := by
  simp only [le_iff, UInt32.lt_iff_toNat_lt, UInt32.le_iff_toNat_le, ← UInt32.toNat_inj] at *
  omega

theorem le_total (p q : Position) : p.le q = true ∨ q.le p = true := by
  simp only [le_iff, UInt32.lt_iff_toNat_lt, UInt32.le_iff_toNat_le, ← UInt32.toNat_inj]
  omega

end Position

/-- The stable `mergeSort` keeps the order of items with `p`, if they are all the same to `le`. -/
theorem filter_mergeSort {α : Type} {le : α → α → Bool} {p : α → Bool}
    (htrans : ∀ a b c, le a b = true → le b c = true → le a c = true)
    (htotal : ∀ a b, (le a b || le b a) = true)
    (hp : ∀ a b, p a = true → p b = true → le a b = true) (l : List α) :
    (l.mergeSort le).filter p = l.filter p := by
  have hpairwise : (l.filter p).Pairwise fun a b => le a b = true :=
    List.pairwise_of_forall_mem_list fun a ha b hb =>
      hp a b (List.mem_filter.1 ha).2 (List.mem_filter.1 hb).2
  have hsublist : (l.filter p).Sublist (l.mergeSort le) :=
    List.sublist_mergeSort htrans htotal hpairwise List.filter_sublist
  have hfilter : (l.filter p).Sublist ((l.mergeSort le).filter p) := by
    simpa [List.filter_filter] using hsublist.filter p
  exact (hfilter.eq_of_length ((List.mergeSort_perm l le).filter p).length_eq.symm).symm

/-- A stable sort puts `a` before the first of the sorted others that may stand behind it. -/
theorem mergeSort_cons_eq {α : Type} {le : α → α → Bool}
    (htrans : ∀ a b c, le a b = true → le b c = true → le a c = true)
    (htotal : ∀ a b, (le a b || le b a) = true) (a : α) (l : List α) :
    (a :: l).mergeSort le =
      (l.mergeSort le).takeWhile (!le a ·) ++ a :: (l.mergeSort le).dropWhile (!le a ·) := by
  obtain ⟨before, behind, hcons, hl, hbefore⟩ := List.mergeSort_cons htrans htotal a l
  have hsorted := List.pairwise_mergeSort htrans htotal (a :: l)
  rw [hcons] at hsorted
  have hbehind : ∀ b ∈ behind, le a b = true :=
    (List.pairwise_cons.1 (List.pairwise_append.1 hsorted).2.1).1
  have htake : behind.takeWhile (!le a ·) = [] ∧ behind.dropWhile (!le a ·) = behind := by
    cases behind with
    | nil => exact ⟨rfl, rfl⟩
    | cons b rest => simp [hbehind b List.mem_cons_self]
  rw [hcons, hl, List.takeWhile_append_of_pos hbefore, List.dropWhile_append_of_pos hbefore,
    htake.1, htake.2, List.append_nil]

namespace Mock.Method

/-! ## One method of each signature -/

theorem distinct_sublist (l : List Method) : (distinct l).Sublist l := by
  induction l with
  | nil => exact .slnil
  | cons m l ih => exact (List.filter_sublist.trans ih).cons_cons m

theorem sameSignature_symm {m n : Method} : m.sameSignature n = n.sameSignature m := by
  simp [sameSignature, eq_comm]

theorem pairwise_distinct (l : List Method) :
    (distinct l).Pairwise fun m n => m.sameSignature n = false := by
  induction l with
  | nil => exact .nil
  | cons m l ih =>
    refine List.pairwise_cons.2 ⟨fun n hn => ?_, ih.filter _⟩
    simpa using (List.mem_filter.1 hn).2

/-- Of the methods of `l` with the signature of `r`, `distinct` keeps the first and no other. -/
theorem filter_distinct (l : List Method) (r : Method) :
    (distinct l).filter (·.sameSignature r) = (l.find? (·.sameSignature r)).toList := by
  induction l with
  | nil => rfl
  | cons m l ih =>
    rw [distinct, List.filter_cons, List.find?_cons, List.filter_filter]
    cases hm : m.sameSignature r with
    | true =>
      -- what has the signature of `r` has that of `m` as well
      have hnone : (distinct l).filter (fun n => n.sameSignature r && !m.sameSignature n) = [] := by
        refine List.filter_eq_nil_iff.2 fun n _ => ?_
        simp_all [sameSignature]
      rw [if_pos rfl, hnone]
      rfl
    | false =>
      have hsame : (distinct l).filter (fun n => n.sameSignature r && !m.sameSignature n) =
          (distinct l).filter (·.sameSignature r) := by
        refine List.filter_congr fun n _ => ?_
        by_cases hn : n.signature = r.signature <;> simp_all [sameSignature]
      rw [hsame, ih]
      rfl

end Mock.Method

namespace Extract

variable {σ : Type}

/-! ## Arranged methods -/

/-- How the `methods` of an interface come from the descriptions `described` of what it declares and
embeds. -/
structure Arranged (described methods : List Mock.Method) : Prop where
  /-- The `methods` stand in the order of their positions. -/
  ascending : methods.Pairwise fun m n => m.position.le n.position = true
  /-- No two of the `methods` have the same signature. -/
  distinct : methods.Pairwise fun m n => m.sameSignature n = false
  /-- Of all in `described` with one signature the first is there, and no other method. -/
  first : ∀ r ∈ described, ∃ m, methods.filter (·.sameSignature r) = [m] ∧
    described.find? (·.sameSignature r) = some m
  /-- Methods of one position `p` stand in the order in which they were `described`. -/
  stable : ∀ p, (methods.filter (·.position = p)).Sublist described

theorem position_trans (a b c : Mock.Method) (hab : a.position.le b.position = true)
    (hbc : b.position.le c.position = true) : a.position.le c.position = true :=
  Position.le_trans hab hbc

theorem position_total (a b : Mock.Method) :
    (a.position.le b.position || b.position.le a.position) = true :=
  Bool.or_eq_true_iff.2 (Position.le_total a.position b.position)

theorem arranged_distinct (described : List Mock.Method) :
    Arranged described
      ((Mock.Method.distinct described).mergeSort fun m n => m.position.le n.position) := by
  have hperm := List.mergeSort_perm (Mock.Method.distinct described)
    fun m n => m.position.le n.position
  refine ⟨List.pairwise_mergeSort position_trans position_total _, ?_, ?_, ?_⟩
  · refine (hperm.pairwise_iff fun {m n} h => ?_).2 (Mock.Method.pairwise_distinct described)
    rw [← h, Mock.Method.sameSignature_symm]
  · intro r hr
    have hsome : (described.find? (·.sameSignature r)).isSome :=
      List.find?_isSome.2 ⟨r, hr, by simp [Mock.Method.sameSignature]⟩
    obtain ⟨m, hm⟩ := Option.isSome_iff_exists.1 hsome
    have hfilter := hperm.filter (·.sameSignature r)
    rw [Mock.Method.filter_distinct, hm] at hfilter
    exact ⟨m, List.perm_singleton.1 hfilter, hm⟩
  · intro p
    have hsame : ∀ m n : Mock.Method, decide (m.position = p) = true →
        decide (n.position = p) = true → m.position.le n.position = true := by
      intro m n hm hn
      rw [of_decide_eq_true hm, of_decide_eq_true hn]
      exact p.le_refl
    rw [filter_mergeSort position_trans position_total hsame]
    exact List.filter_sublist.trans (Mock.Method.distinct_sublist described)

/-- If `interface` succeeds, it writes out the constraints of the type parameters and then describes
every method of every interface in `explode`, in the order of that list and then of the
declarations. `i.methods` are these descriptions, `Arranged`. -/
theorem interface_methods_arranged {q : Qualifier σ} {package : Package} {object : Object}
    {i : Mock.Interface} {s s₁ : σ} (h : (interface package object q).run s = (.ok i, s₁)) :
    ∃ id s₀ described, package.types.interface? object.type = some id ∧
      Outcome.InTurn (fun (p : TypeParamSpec) => do
          return Mock.TypeParam.mk p.name (← typeText package.types q p.constraint))
        s (declaredTypeParams package.types object.type) i.typeParams s₀ ∧
      Outcome.InTurn (fun m => method package.types q m.1 m.2) s₀ (allMethods package.types id)
        described s₁ ∧
      Arranged described i.methods := by
  obtain ⟨id, typeParams, described, s₀, -, hid, -, htypeParams, -, hdescribed, rfl⟩ :=
    interface_steps h
  exact ⟨id, s₀, described, hid, Outcome.run_mapM_iff.1 htypeParams,
    Outcome.run_mapM_iff.1 hdescribed, arranged_distinct described⟩

/-- `I` embeds two interfaces. Both declare `M`, the second one before the first, and the others are
declared in one place. -/
def scattered : Package :=
  ofTypes #[
    .basic .int,
    .signature [⟨"a", 0⟩] [] false,
    .signature [⟨"b", 0⟩] [] false,
    .signature [] [] false,
    .interface [⟨"N", 3, ⟨0, 5, 1⟩⟩, ⟨"M", 1, ⟨0, 2, 1⟩⟩] [] false,
    .interface [⟨"M", 2, ⟨0, 1, 1⟩⟩, ⟨"K", 3, ⟨0, 5, 1⟩⟩] [] false,
    .interface [] [4, 5] false,
    .named "I" (some ⟨"p", "p"⟩) [] [] 6]

/-- The description of a method of `scattered`. -/
def scatteredMethod (name : String) (params : Mock.Params) (origin : String) (line : UInt32) :
    Mock.Method where
  name
  params
  results := []
  origin
  position := ⟨0, line, 1⟩

theorem explode_scattered : scattered.types.explode 6 = [6, 4, 5] :=
  TypeGraph.explode_of_within 3 rfl

theorem sorted_scattered :
    ([scatteredMethod "N" [] "interface\x7bN(); M(a int)\x7d" 5,
        scatteredMethod "M" [{ name := "a", type := "int" }] "interface\x7bN(); M(a int)\x7d" 2,
        scatteredMethod "K" [] "interface\x7bM(b int); K()\x7d" 5].mergeSort
          fun m n => m.position.le n.position) =
      [scatteredMethod "M" [{ name := "a", type := "int" }] "interface\x7bN(); M(a int)\x7d" 2,
        scatteredMethod "N" [] "interface\x7bN(); M(a int)\x7d" 5,
        scatteredMethod "K" [] "interface\x7bM(b int); K()\x7d" 5] := by
  rw [mergeSort_cons_eq position_trans position_total, List.mergeSort_of_pairwise (by decide)]
  rfl

theorem interface_scattered :
    (interface scattered (declarationOf 7) (ImportScope.mk "p" []).qualify).run [] =
      (.ok {
        name := "I"
        typeParams := []
        methods := [
          scatteredMethod "M" [{ name := "a", type := "int" }] "interface\x7bN(); M(a int)\x7d" 2,
          scatteredMethod "N" [] "interface\x7bN(); M(a int)\x7d" 5,
          scatteredMethod "K" [] "interface\x7bM(b int); K()\x7d" 5] }, []) :=
  interface_of_explode rfl rfl
    (TypeGraph.valid_of_closed [0, 1, 2, 3, 4, 5, 6, 7] rfl (by decide)) explode_scattered rfl rfl
    rfl sorted_scattered

/-- Of the two declarations of `M` the one that is described first is kept, though the other has the
smaller position, and `K` stays behind `N`. -/
theorem interface_methods_arranged_scattered :
    ∃ i described, (interface scattered (declarationOf 7) (ImportScope.mk "p" []).qualify).run [] =
        (.ok i, []) ∧
      i.methods.map (fun m => (m.name, m.position.line)) = [("M", 2), ("N", 5), ("K", 5)] ∧
      Outcome.InTurn (fun m => method scattered.types (ImportScope.mk "p" []).qualify m.1 m.2) []
        (allMethods scattered.types 6) described [] ∧
      Arranged described i.methods := by
  obtain ⟨id, s₀, described, hid, htypeParams, hdescribed, harranged⟩ :=
    interface_methods_arranged interface_scattered
  obtain rfl : 6 = id := Option.some.inj hid
  cases htypeParams
  exact ⟨_, described, interface_scattered, rfl, hdescribed, harranged⟩

end Extract

end Understudy
