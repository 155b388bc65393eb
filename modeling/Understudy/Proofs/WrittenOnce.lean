import Understudy.Proofs.Endings

/-!
# Types that are not met again

The writer watches for a type that is met again while it is being written, and cuts it short. Named
types are not watched; one that is met again leads round to a type that is, or writing does not end.
So a text that ends and is nowhere cut short is that of a type in which nothing stands inside
itself, and such a text is the same wherever the type stands.

* `TypeGraph.WrittenOnce`: no type in a type stands inside itself.
* `TypeGraph.CutShort`: the writer meets a type that it is writing.
* `TypeGraph.writtenOnce_iff`: a type is written once exactly if its text ends and is not cut short.
* `TypeGraph.tokens?_of_apart`: the text of such a type does not depend on what surrounds it.
-/

namespace Understudy.TypeGraph

open TypePart

variable {g : TypeGraph}

/-- No type that is written for `id` stands inside itself: none is met again while it is being
written. -/
def WrittenOnce (g : TypeGraph) (id : TypeId) : Prop :=
  ∀ a, Relation.ReflTransGen g.PartOf a id → ¬ Relation.TransGen g.PartOf a a

theorem WrittenOnce.part {id t : TypeId} (h : g.WrittenOnce id) (ht : g.PartOf t id) :
    g.WrittenOnce t :=
  fun a ha => h a (ha.tail ht)

/-! ## Finitely many levels -/

theorem WrittenOnce.acc {id : TypeId} (h : g.WrittenOnce id) : Acc g.PartOf id :=
  acc_of_acyclic (P := fun a => Relation.ReflTransGen g.PartOf a id)
    (fun _ _ hinside hb => .head hb hinside) h .refl

theorem not_transGen_self {id : TypeId} (h : Acc g.PartOf id) :
    ¬ Relation.TransGen g.PartOf id id := by
  have hacc := h.transGen
  clear h
  induction hacc with
  | intro id _ ih => exact fun hself => ih id hself hself

theorem writtenOnce_of_acc {id : TypeId} (h : Acc g.PartOf id) : g.WrittenOnce id := by
  induction h with
  | intro id hall ih =>
    intro a ha
    rcases Relation.ReflTransGen.cases_tail ha with rfl | ⟨t, hat, ht⟩
    · exact not_transGen_self ⟨_, hall⟩
    · exact ih t ht a hat

theorem writtenOnce_of_parts {id : TypeId} (h : ∀ t, g.PartOf t id → g.WrittenOnce t) :
    g.WrittenOnce id :=
  writtenOnce_of_acc ⟨_, fun t ht => (h t ht).acc⟩

theorem exists_tokens?_of_acc {id : TypeId} (h : Acc g.PartOf id) (active : List TypeId) :
    ∃ n, (g.tokens? n active id).isSome := by
  induction h generalizing active with
  | intro id _ ih =>
    cases hnode : g.get? id with
    | none => exact ⟨1, by simp [tokens?, hnode]⟩
    | some node =>
      by_cases hactive : id ∈ active
      · exact ⟨1, by simp [tokens?, hnode, hactive]⟩
      obtain ⟨n, hn⟩ := exists_allTokens? fun t ht =>
        ih t ⟨node, hnode, ht⟩ (node.enter id active)
      exact ⟨n + 1, by simpa [tokens?, hnode, hactive] using hn⟩

/-! ## What the writer does -/

/-- `CutShort g active id`: while `id` is written inside the types of `active`, the writer meets a
type that it is writing already. -/
inductive CutShort (g : TypeGraph) : List TypeId → TypeId → Prop
  | again {active : List TypeId} {id : TypeId} {node : TypeNode} (hnode : g.get? id = some node)
      (hactive : id ∈ active) : CutShort g active id
  | inside {active : List TypeId} {id t : TypeId} {node : TypeNode} (hnode : g.get? id = some node)
      (hactive : id ∉ active) (ht : .type t ∈ g.parts node)
      (h : CutShort g (node.enter id active) t) : CutShort g active id

theorem mem_enter {node : TypeNode} {id a : TypeId} {active : List TypeId}
    (h : a ∈ node.enter id active) : a = id ∨ a ∈ active := by
  unfold TypeNode.enter at h
  split at h
  · exact .inr h
  · exact List.mem_cons.1 h

/-- If a type is met again while `id` is written, it stands inside itself, or was in `active` from
the start. -/
theorem CutShort.exists_inside {active : List TypeId} {id : TypeId} (h : g.CutShort active id) :
    ∃ a, Relation.ReflTransGen g.PartOf a id ∧
      (a ∈ active ∨ Relation.TransGen g.PartOf a a) := by
  induction h with
  | again _ hactive => exact ⟨_, .refl, .inl hactive⟩
  | @inside active id t node hnode _ ht _ ih =>
    have hpart : g.PartOf t id := ⟨node, hnode, ht⟩
    obtain ⟨a, hat, ha | hself⟩ := ih
    · rcases mem_enter ha with rfl | ha
      · exact ⟨a, .refl, .inr (.tail' hat hpart)⟩
      · exact ⟨a, hat.tail hpart, .inl ha⟩
    · exact ⟨a, hat.tail hpart, .inr hself⟩

theorem WrittenOnce.not_cutShort {id : TypeId} (h : g.WrittenOnce id) : ¬ g.CutShort [] id := by
  intro hcut
  obtain ⟨a, ha, hnil | hself⟩ := hcut.exists_inside
  · cases hnil
  · exact h a ha hself

/-- A text of `id` that ends and is nowhere `CutShort` has finitely many levels. -/
theorem acc_of_uncut {n : Nat} {active : List TypeId} {id : TypeId}
    (hends : (g.tokens? n active id).isSome) (huncut : ¬ g.CutShort active id) :
    Acc g.PartOf id := by
  induction n generalizing active id with
  | zero => cases hends
  | succ n ih =>
    constructor
    rintro t ⟨node, hnode, ht⟩
    have hactive : id ∉ active := fun h => huncut (.again hnode h)
    simp only [tokens?, hnode, if_neg hactive] at hends
    exact ih (allTokens?_isSome_iff.1 hends t ht) fun h => huncut (.inside hnode hactive ht h)

/-- `id` is `WrittenOnce` exactly if its text ends and is nowhere `CutShort`. -/
theorem writtenOnce_iff {id : TypeId} :
    g.WrittenOnce id ↔ (g.tokens? g.depth [] id).isSome ∧ ¬ g.CutShort [] id := by
  constructor
  · intro h
    obtain ⟨n, hn⟩ := exists_tokens?_of_acc h.acc []
    obtain ⟨ts, hts⟩ := Option.isSome_iff_exists.1 hn
    exact ⟨Option.isSome_iff_exists.2 ⟨ts, tokens?_depth_iff.2 ⟨n, hts⟩⟩, h.not_cutShort⟩
  · rintro ⟨hends, huncut⟩
    exact writtenOnce_of_acc (acc_of_uncut hends huncut)

theorem exists_of_mem_allTokens? {type : TypeId → Option (List Token)} {parts : List TypePart}
    {ts : List Token} (h : allTokens? type parts = some ts) {t : TypeId} (ht : .type t ∈ parts) :
    ∃ us, type t = some us ∧ us ⊆ ts := by
  induction parts generalizing ts with
  | nil => cases ht
  | cons part rest ih =>
    obtain ⟨us, hus, hrest⟩ := Option.bind_eq_some_iff.1 h
    obtain ⟨vs, hvs, rfl⟩ := Option.map_eq_some_iff.1 hrest
    rcases List.mem_cons.1 ht with rfl | ht
    · exact ⟨us, hus, List.subset_append_left us vs⟩
    · obtain ⟨ws, hws, hsub⟩ := ih hvs ht
      exact ⟨ws, hws, List.subset_append_of_subset_right us hsub⟩

/-- A text in which a type is `CutShort` says so. -/
theorem CutShort.cycle_mem {active : List TypeId} {id : TypeId} (h : g.CutShort active id) {n : Nat}
    {ts : List Token} (hts : g.tokens? n active id = some ts) : .text "<cycle>" ∈ ts := by
  induction h generalizing n ts with
  | again hnode hactive =>
    cases n with
    | zero => cases hts
    | succ n =>
      simp only [tokens?, hnode, if_pos hactive] at hts
      obtain rfl := Option.some.inj hts
      exact List.mem_cons_self
  | inside hnode hactive ht _ ih =>
    cases n with
    | zero => cases hts
    | succ n =>
      simp only [tokens?, hnode, if_neg hactive] at hts
      obtain ⟨us, hus, hsub⟩ := exists_of_mem_allTokens? hts ht
      exact hsub (ih hus)

theorem writtenOnce_of_tokens {id : TypeId} {ts : List Token}
    (hts : g.tokens? g.depth [] id = some ts) (hcycle : .text "<cycle>" ∉ ts) :
    g.WrittenOnce id := by
  rw [writtenOnce_iff, hts]
  exact ⟨rfl, fun hcut => hcycle (hcut.cycle_mem hts)⟩

/-! ## The same text everywhere -/

/-- What surrounds `id`, `active` or `active'`, plays no part in its text, as long as none of it is
met again. -/
theorem tokens?_of_apart {id : TypeId} (honce : g.WrittenOnce id) {active active' : List TypeId}
    (h : ∀ a ∈ active, ¬ Relation.ReflTransGen g.PartOf a id)
    (h' : ∀ a ∈ active', ¬ Relation.ReflTransGen g.PartOf a id) (n : Nat) :
    g.tokens? n active' id = g.tokens? n active id := by
  induction n generalizing id active active' with
  | zero => rfl
  | succ n ih =>
    rw [tokens?, tokens?]
    cases hnode : g.get? id with
    | none => rfl
    | some node =>
      have hactive : id ∉ active := fun hmem => h id hmem .refl
      have hactive' : id ∉ active' := fun hmem => h' id hmem .refl
      simp only [if_neg hactive, if_neg hactive']
      refine allTokens?_congr fun t ht => ?_
      have hpart : g.PartOf t id := ⟨node, hnode, ht⟩
      -- neither the type itself nor anything around it is met again
      have henter : ∀ {active : List TypeId},
          (∀ a ∈ active, ¬ Relation.ReflTransGen g.PartOf a id) →
            ∀ a ∈ node.enter id active, ¬ Relation.ReflTransGen g.PartOf a t := by
        intro active h a ha hat
        rcases mem_enter ha with rfl | ha
        · exact honce a .refl (.tail' hat hpart)
        · exact h a ha (hat.tail hpart)
      exact ih (honce.part hpart) (henter h) (henter h')

theorem WrittenOnce.tokens_eq {id : TypeId} (h : g.WrittenOnce id) :
    g.tokens? g.depth [] id = some (g.tokens id) := by
  obtain ⟨ts, hts⟩ := Option.isSome_iff_exists.1 (writtenOnce_iff.1 h).1
  rw [tokens, hts, Option.getD_some]

theorem WrittenOnce.hasText {id : TypeId} (h : g.WrittenOnce id) : g.hasText id = true := by
  rw [hasText_eq, h.tokens_eq, Option.isSome_some]

/-- The slice `id` is written as brackets and its `elem`. The element is the same inside the slice
as on its own, since it does not lead back to the slice. -/
theorem tokens_slice {id elem : TypeId} (hnode : g.get? id = some (.slice elem))
    (honce : g.WrittenOnce elem) : g.tokens id = .text "[]" :: g.tokens elem := by
  have hpart : g.PartOf elem id := ⟨_, hnode, by simp [parts]⟩
  have hapart : ∀ a ∈ [id], ¬ Relation.ReflTransGen g.PartOf a elem := by
    intro a ha hback
    obtain rfl := List.mem_singleton.1 ha
    exact honce elem .refl (.head' hpart hback)
  have hinside : g.tokens? g.depth [id] elem = some (g.tokens elem) := by
    rw [← honce.tokens_eq]
    exact tokens?_of_apart honce (fun a ha => absurd ha List.not_mem_nil) hapart g.depth
  have hslice : g.tokens? (g.depth + 1) [] id = some (.text "[]" :: g.tokens elem) := by
    simp [tokens?, hnode, TypeNode.enter, TypeNode.aliased?, parts, allTokens?, TypePart.tokens?,
      hinside]
  rw [tokens, tokens?_depth_iff.2 ⟨_, hslice⟩, Option.getD_some]

end Understudy.TypeGraph
