import Mathlib.Data.List.Nodup
import Mathlib.Data.List.Perm.Subperm
import Mathlib.Data.Nat.Init
import Mathlib.Logic.Relation
import Understudy.Proofs.Reachability
import Understudy.Proofs.Tokens

/-!
# Depths that suffice

Following names and writing types are recursions that give up at a certain depth. That depth is
never what decides an answer: an item that needs a depth has another below it that needs one less,
no two of them can be the same, and a graph has only so many types.

* `Needs`: the least depth at which there is an answer.
* `Needs.lt_add_length`: among the items of a list there are only so many depths.
* `TypeGraph.underlying?_eq_some_iff`: what a name stands for, as a chain of any length.
* `TypeGraph.tokens?_depth_iff`: what is written for a type, with types inside one another to any
  depth.
-/

namespace Understudy

/-! ## Least depths -/

section Needs

variable {α β : Type} {find : Nat → α → Option β}

/-- The answer for `a` is found at depth `n + 1` and not before. -/
def Needs (find : Nat → α → Option β) (n : Nat) (a : α) : Prop :=
  find n a = none ∧ (find (n + 1) a).isSome

/-- An answer that `find` gives at some depth is given at every greater one. -/
def Keeps (find : Nat → α → Option β) : Prop :=
  ∀ n a b, find n a = some b → find (n + 1) a = some b

theorem Keeps.le (h : Keeps find) {m n : Nat} (hmn : m ≤ n) {a : α} {b : β}
    (hm : find m a = some b) : find n a = some b := by
  induction hmn with
  | refl => exact hm
  | step _ ih => exact h _ _ _ ih

theorem Keeps.needs_unique (h : Keeps find) {m n : Nat} {a : α} (hm : Needs find m a)
    (hn : Needs find n a) : m = n := by
  have hle : ∀ {m n : Nat}, Needs find m a → Needs find n a → n ≤ m := by
    intro m n hm hn
    by_contra hlt
    obtain ⟨b, hb⟩ := Option.isSome_iff_exists.1 hm.2
    have hsome := h.le (show m + 1 ≤ n by omega) hb
    rw [hn.1] at hsome
    cases hsome
  exact Nat.le_antisymm (hle hn hm) (hle hm hn)

theorem Keeps.exists_needs (hkeeps : Keeps find) (hzero : ∀ a, find 0 a = none) {n : Nat} {a : α}
    {b : β} (h : find n a = some b) : ∃ m, Needs find m a ∧ find (m + 1) a = some b := by
  induction n with
  | zero =>
    rw [hzero] at h
    cases h
  | succ n ih =>
    cases hn : find n a with
    | none => exact ⟨n, ⟨hn, Option.isSome_iff_exists.2 ⟨b, h⟩⟩, h⟩
    | some c =>
      rw [hkeeps n a c hn] at h
      cases h
      exact ih hn

/-- From `low` on, what needs a depth is an item of the list, and another needs one less. So the
depths from `low` on are at most as many as the items. -/
theorem Needs.lt_add_length (hkeeps : Keeps find) (items : List α) (low : Nat)
    (hmem : ∀ n a, low ≤ n → Needs find n a → a ∈ items)
    (hbelow : ∀ n a, low ≤ n → Needs find (n + 1) a → ∃ b, Needs find n b)
    {n : Nat} {a : α} (h : Needs find n a) : n < low + items.length := by
  have hevery : ∀ m, m ≤ n → low ≤ m → ∃ b, Needs find m b := by
    intro m hmn
    induction hmn using Nat.decreasingInduction with
    | self => exact fun _ => ⟨a, h⟩
    | of_succ m _ ih =>
      intro hlow
      obtain ⟨b, hb⟩ := ih (Nat.le_succ_of_le hlow)
      exact hbelow m b hlow hb
  have hitem : ∀ k, ∃ b, k < n + 1 - low → Needs find (low + k) b := by
    intro k
    by_cases hk : k < n + 1 - low
    · obtain ⟨b, hb⟩ := hevery (low + k) (by omega) (by omega)
      exact ⟨b, fun _ => hb⟩
    · exact ⟨a, fun hlt => absurd hlt hk⟩
  choose item hitem using hitem
  -- one item for each depth from `low` to `n`: all different, since each needs another depth
  have hnodup : ((List.range (n + 1 - low)).map item).Nodup := by
    refine (List.nodup_map_iff_inj_on List.nodup_range).2 ?_
    intro j hj k hk heq
    have hjk := hkeeps.needs_unique (hitem j (List.mem_range.1 hj))
      (heq ▸ hitem k (List.mem_range.1 hk))
    omega
  have hsubset : (List.range (n + 1 - low)).map item ⊆ items := by
    intro b hb
    obtain ⟨k, hk, rfl⟩ := List.mem_map.1 hb
    exact hmem _ _ (Nat.le_add_right low k) (hitem k (List.mem_range.1 hk))
  have hlength := (List.subperm_of_subset hnodup hsubset).length_le
  rw [List.length_map, List.length_range] at hlength
  omega

end Needs

namespace TypeGraph

variable {g : TypeGraph}

/-! ## What a name stands for -/

/-- The number `a` is that of a named type or an alias, which stands for `b`. -/
def Names (g : TypeGraph) (a b : TypeId) : Prop :=
  ∃ node, g.get? a = some node ∧ node.aliased? = some b

/-- The number `a` is that of a type that is no name for another. -/
def Unnamed (g : TypeGraph) (a : TypeId) : Prop :=
  ∃ node, g.get? a = some node ∧ node.aliased? = none

theorem length_ids (g : TypeGraph) : g.ids.length = g.size := by
  simp [ids]

theorem follow_of_names {a b : TypeId} (h : g.Names a b) (n : Nat) :
    g.follow (n + 1) a = g.follow n b := by
  obtain ⟨node, hnode, haliased⟩ := h
  simp [follow, hnode, haliased]

theorem follow_of_unnamed {a : TypeId} (h : g.Unnamed a) (n : Nat) :
    g.follow (n + 1) a = some a := by
  obtain ⟨node, hnode, haliased⟩ := h
  simp [follow, hnode, haliased]

theorem names_or_unnamed {n : Nat} {a : TypeId} (h : (g.follow n a).isSome) :
    (∃ b, g.Names a b) ∨ g.Unnamed a := by
  cases n with
  | zero => cases h
  | succ n =>
    cases hnode : g.get? a with
    | none => simp [follow, hnode] at h
    | some node =>
      cases haliased : node.aliased? with
      | none => exact .inr ⟨node, hnode, haliased⟩
      | some b => exact .inl ⟨b, node, hnode, haliased⟩

theorem keeps_follow (g : TypeGraph) : Keeps g.follow := by
  intro n
  induction n with
  | zero =>
    intro a t h
    cases h
  | succ n ih =>
    intro a t h
    rcases names_or_unnamed (Option.isSome_iff_exists.2 ⟨t, h⟩) with ⟨b, hb⟩ | ha
    · rw [follow_of_names hb] at h ⊢
      exact ih b t h
    · rw [follow_of_unnamed ha] at h ⊢
      exact h

/-- One step more than `g.size` is enough to come to the end of a chain of names. -/
theorem underlying?_of_follow {n : Nat} {a t : TypeId} (h : g.follow n a = some t) :
    g.underlying? a = some t := by
  obtain ⟨m, hneeds, ht⟩ := g.keeps_follow.exists_needs (fun _ => rfl) h
  have hlt : m < 0 + g.ids.length := by
    refine hneeds.lt_add_length g.keeps_follow g.ids 0 (fun k b _ hb => ?_) fun k b _ hb => ?_
    · rcases names_or_unnamed hb.2 with ⟨_, _, hnode, -⟩ | ⟨_, hnode, -⟩ <;>
        exact mem_ids_of_get? hnode
    · rcases names_or_unnamed hb.2 with ⟨c, hc⟩ | hunnamed
      · refine ⟨c, ?_, ?_⟩
        · rw [← follow_of_names hc]; exact hb.1
        · rw [← follow_of_names hc]; exact hb.2
      · rw [Needs, follow_of_unnamed hunnamed] at hb
        cases hb.1
  rw [length_ids] at hlt
  exact g.keeps_follow.le (by omega) ht

/-- `a` stands for the end `t` of the chain of `Names` that starts with it, however long it is. A
chain that leaves `g` or goes round in a circle has no end. -/
theorem underlying?_eq_some_iff {a t : TypeId} :
    g.underlying? a = some t ↔ Relation.ReflTransGen g.Names a t ∧ g.Unnamed t := by
  constructor
  · rw [underlying?]
    generalize g.size + 1 = n
    induction n generalizing a with
    | zero => intro h; cases h
    | succ n ih =>
      intro h
      rcases names_or_unnamed (Option.isSome_iff_exists.2 ⟨t, h⟩) with ⟨b, hb⟩ | ha
      · rw [follow_of_names hb] at h
        exact ⟨.head hb (ih h).1, (ih h).2⟩
      · rw [follow_of_unnamed ha] at h
        cases h
        exact ⟨.refl, ha⟩
  · rintro ⟨hchain, ht⟩
    suffices ∃ n, g.follow n a = some t from this.elim fun _ => underlying?_of_follow
    induction hchain using Relation.ReflTransGen.head_induction_on with
    | refl => exact ⟨1, follow_of_unnamed ht 0⟩
    | head hb _ ih =>
      obtain ⟨n, hn⟩ := ih
      exact ⟨n + 1, (follow_of_names hb n).trans hn⟩

/-! ## What is written for a type -/

theorem allTokens?_mono {type type' : TypeId → Option (List Token)}
    (h : ∀ t ts, type t = some ts → type' t = some ts) {parts : List TypePart} {ts : List Token}
    (hts : TypePart.allTokens? type parts = some ts) :
    TypePart.allTokens? type' parts = some ts := by
  induction parts generalizing ts with
  | nil => exact hts
  | cons part rest ih =>
    obtain ⟨us, hus, hrest⟩ := Option.bind_eq_some_iff.1 hts
    obtain ⟨vs, hvs, rfl⟩ := Option.map_eq_some_iff.1 hrest
    have hpart : part.tokens? type' = some us := by
      cases part with
      | text s => exact hus
      | package p => exact hus
      | type t => exact h t us hus
    rw [TypePart.allTokens?, hpart, Option.bind_some, ih hvs, Option.map_some]

theorem allTokens?_isSome_iff {type : TypeId → Option (List Token)} {parts : List TypePart} :
    (TypePart.allTokens? type parts).isSome ↔ ∀ t, .type t ∈ parts → (type t).isSome := by
  induction parts with
  | nil => simp [TypePart.allTokens?]
  | cons part rest ih =>
    cases part with
    | text s => simp [TypePart.allTokens?, TypePart.tokens?, ih]
    | package p => simp [TypePart.allTokens?, TypePart.tokens?, ih]
    | type t =>
      rw [TypePart.allTokens?, TypePart.tokens?]
      cases ht : type t with
      | none =>
        constructor
        · intro h
          cases h
        · intro h
          have hwritten := h t List.mem_cons_self
          rw [ht] at hwritten
          cases hwritten
      | some ts => simp [ih, ht]

theorem keeps_tokens (g : TypeGraph) (active : List TypeId) :
    Keeps fun n => g.tokens? n active := by
  intro n
  induction n generalizing active with
  | zero =>
    intro a ts h
    cases h
  | succ n ih =>
    intro a ts h
    simp only [tokens?] at h ⊢
    cases hnode : g.get? a with
    | none => simpa [hnode] using h
    | some node =>
      by_cases hactive : a ∈ active
      · simpa [hnode, hactive] using h
      · simp only [hnode, if_neg hactive] at h ⊢
        exact allTokens?_mono (ih (node.enter a active)) h

/-- A type `a` that is not written at once is written out, and one of the types in it needs one
depth less. -/
theorem needs_tokens_below {active : List TypeId} {n : Nat} {a : TypeId}
    (h : Needs (fun n => g.tokens? n active) (n + 1) a) :
    ∃ node, g.get? a = some node ∧ a ∉ active ∧
      ∃ t, Needs (fun n => g.tokens? n (node.enter a active)) n t := by
  obtain ⟨hnone, hsome⟩ := h
  simp only [tokens?] at hnone hsome
  cases hnode : g.get? a with
  | none => simp [hnode] at hnone
  | some node =>
    by_cases hactive : a ∈ active
    · simp [hnode, hactive] at hnone
    · simp only [hnode, if_neg hactive] at hnone hsome
      refine ⟨node, rfl, hactive, ?_⟩
      by_contra! hall
      have hwritten : (TypePart.allTokens? (g.tokens? n (node.enter a active))
          (g.parts node)).isSome := by
        refine allTokens?_isSome_iff.2 fun t ht => ?_
        have htext := allTokens?_isSome_iff.1 hsome t ht
        by_contra hempty
        exact hall t ⟨Option.not_isSome_iff_eq_none.1 hempty, htext⟩
      rw [hnone] at hwritten
      cases hwritten

/-- The types of `g` that are not in `active`, that is, not being written. -/
def inactive (g : TypeGraph) (active : List TypeId) : List TypeId :=
  g.ids.filter (· ∉ active)

theorem length_inactive_cons {active : List TypeId} {a : TypeId} (ha : a ∈ g.ids)
    (h : a ∉ active) : (g.inactive (a :: active)).length < (g.inactive active).length := by
  have hfilter : g.inactive (a :: active) = (g.inactive active).filter (· ≠ a) := by
    rw [inactive, inactive, List.filter_filter]
    exact List.filter_congr fun b _ => by simp [not_or]
  rw [hfilter]
  exact List.length_filter_lt_length_iff_exists.2 ⟨a, by simp [inactive, ha, h], by simp⟩

/-- The induction is on `free`, the types that can still be written out. Between two of them stand
only named types, each of which needs another depth. -/
theorem needs_tokens_lt {free : Nat} {active : List TypeId}
    (hfree : (g.inactive active).length ≤ free) {n : Nat} {a : TypeId}
    (h : Needs (fun n => g.tokens? n active) n a) : n < (free + 1) * (g.size + 1) := by
  induction free using Nat.strong_induction_on generalizing active n a with
  | _ free ih =>
  have hbelow : ∀ n a, free * (g.size + 1) ≤ n → Needs (fun n => g.tokens? n active) (n + 1) a →
      a ∈ g.ids ∧ ∃ t, Needs (fun n => g.tokens? n active) n t := by
    intro n a hn h
    obtain ⟨node, hnode, hactive, t, ht⟩ := needs_tokens_below h
    have hids := mem_ids_of_get? hnode
    refine ⟨hids, t, ?_⟩
    unfold TypeNode.enter at ht
    split at ht
    · exact ht
    · have hless := Nat.lt_of_lt_of_le (length_inactive_cons hids hactive) hfree
      have hlt := ih _ hless (Nat.le_refl _) ht
      have hle : (g.inactive (a :: active)).length + 1 ≤ free := hless
      have := Nat.mul_le_mul_right (g.size + 1) hle
      omega
  have hlt := h.lt_add_length (g.keeps_tokens active) g.ids (free * (g.size + 1) + 1) ?_
    fun n a hn h => (hbelow n a (by omega) h).2
  · rw [length_ids] at hlt
    rw [Nat.succ_mul]
    omega
  · intro n a hn h
    obtain ⟨k, rfl⟩ : ∃ k, n = k + 1 := ⟨n - 1, by omega⟩
    exact (hbelow k a (by omega) h).1

theorem tokens?_depth_iff {id : TypeId} {ts : List Token} :
    g.tokens? g.depth [] id = some ts ↔ ∃ n, g.tokens? n [] id = some ts := by
  refine ⟨fun h => ⟨g.depth, h⟩, ?_⟩
  rintro ⟨n, hn⟩
  obtain ⟨m, hneeds, hts⟩ := (g.keeps_tokens []).exists_needs (fun _ => rfl) hn
  have hfree : (g.inactive []).length ≤ g.size := by
    rw [← length_ids]
    exact List.length_filter_le _ _
  exact (g.keeps_tokens []).le (needs_tokens_lt hfree hneeds) hts

end TypeGraph

end Understudy
