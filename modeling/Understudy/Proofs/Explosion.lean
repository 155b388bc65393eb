import Mathlib.Logic.Relation
import Understudy.Graph.Embedding

/-!
# The walk over embedded interfaces

`TypeGraph.explode` takes one interface for another if their texts are the same. So it lists only
interfaces that are embedded at some depth, but not all of them: one that it passes over is stood in
for by another with its text, and what it embeds is never looked at.

* `TypeGraph.Reaches`: embedding in any number of steps.
* `TypeGraph.reaches_of_mem_explode`: what is listed is embedded at some depth.
* `TypeGraph.explodeWithin`, `TypeGraph.explode_of_within`: the list by a bounded number of steps.
* `TypeGraph.explode_closed`: what a listed interface embeds is listed, or another with its text is.
* `TypeGraph.PassedOver`: interfaces that are not listed though one that is listed embeds them.
* `TypeGraph.mem_explode_or_below`: what is not listed is embedded at some depth in one of those.
-/

namespace Understudy.TypeGraph

variable {g : TypeGraph}

/-- `id` embeds `member` in any number of steps, also in none. -/
def Reaches (g : TypeGraph) (id member : TypeId) : Prop :=
  Relation.ReflTransGen (fun a b => b ∈ g.embedded a) id member

/-- Where nothing is embedded in what `id` embeds, one step is enough. -/
theorem Reaches.eq_or_mem {id member : TypeId} (h : g.Reaches id member)
    (hleaf : ∀ a ∈ g.embedded id, g.embedded a = []) : member = id ∨ member ∈ g.embedded id := by
  induction h with
  | refl => exact .inl rfl
  | tail _ hb ih =>
    rcases ih with rfl | hmem
    · exact .inr hb
    · rw [hleaf _ hmem] at hb
      cases hb

/-! ## One queue -/

theorem reaches_of_mem_explodeFrom {met : List String} {queue : List TypeId} {member : TypeId}
    (h : member ∈ g.explodeFrom met queue) : ∃ id ∈ queue, g.Reaches id member := by
  fun_induction explodeFrom g met queue with
  | case1 => cases h
  | case2 met id rest hmet ih =>
    obtain ⟨a, ha, hreach⟩ := ih h
    exact ⟨a, List.mem_cons_of_mem _ ha, hreach⟩
  | case3 met id rest hmet ih =>
    rcases List.mem_cons.1 h with rfl | h
    · exact ⟨member, List.mem_cons_self, .refl⟩
    · obtain ⟨a, ha, hreach⟩ := ih h
      rcases List.mem_append.1 ha with ha | ha
      · exact ⟨a, List.mem_cons_of_mem _ ha, hreach⟩
      · exact ⟨id, List.mem_cons_self, .head ha hreach⟩

/-- `text` was `met` before, or is that of a `listed` interface. -/
def Accounted (g : TypeGraph) (met : List String) (listed : List TypeId) (text : String) : Prop :=
  text ∈ met ∨ ∃ member ∈ listed, g.structuralText member = text

/-- A `text` that is met because `first` is listed can be accounted for by `first`. -/
theorem Accounted.cons {met : List String} {first : TypeId} {listed : List TypeId} {text : String}
    (h : g.Accounted (g.structuralText first :: met) listed text) :
    g.Accounted met (first :: listed) text := by
  rcases h with h | ⟨member, hmember, htext⟩
  · rcases List.mem_cons.1 h with rfl | h
    · exact .inr ⟨first, List.mem_cons_self, rfl⟩
    · exact .inl h
  · exact .inr ⟨member, List.mem_cons_of_mem _ hmember, htext⟩

theorem accounted_of_mem_queue {met : List String} {queue : List TypeId} {id : TypeId}
    (h : id ∈ queue) : g.Accounted met (g.explodeFrom met queue) (g.structuralText id) := by
  fun_induction explodeFrom g met queue with
  | case1 => cases h
  | case2 met first rest hmet ih =>
    rcases List.mem_cons.1 h with rfl | h
    · exact .inl hmet
    · exact ih h
  | case3 met first rest hmet ih =>
    rcases List.mem_cons.1 h with rfl | h
    · exact .inr ⟨id, List.mem_cons_self, rfl⟩
    · exact (ih (List.mem_append_left _ h)).cons

theorem accounted_of_mem_embedded {met : List String} {queue : List TypeId} {owner id : TypeId}
    (howner : owner ∈ g.explodeFrom met queue) (h : id ∈ g.embedded owner) :
    g.Accounted met (g.explodeFrom met queue) (g.structuralText id) := by
  fun_induction explodeFrom g met queue with
  | case1 => cases howner
  | case2 met first rest hmet ih => exact ih howner
  | case3 met first rest hmet ih =>
    rcases List.mem_cons.1 howner with rfl | howner
    · -- what the first interface embeds stands in the queue from here on
      exact (accounted_of_mem_queue (List.mem_append_right _ h)).cons
    · exact (ih howner).cons

/-- The walk `g.explodeFrom met queue`, given up after `n` steps. It recurses on `n`, so that the
list of a given graph can be computed. -/
def explodeWithin (g : TypeGraph) : Nat → List String → List TypeId → Option (List TypeId)
  | _, _, [] => some []
  | 0, _, _ :: _ => none
  | n + 1, met, id :: rest =>
    if g.structuralText id ∈ met then g.explodeWithin n met rest
    else (g.explodeWithin n (g.structuralText id :: met) (rest ++ g.embedded id)).map (id :: ·)

theorem explodeFrom_of_within {n : Nat} {met : List String} {queue listed : List TypeId}
    (h : g.explodeWithin n met queue = some listed) : g.explodeFrom met queue = listed := by
  fun_induction explodeWithin g n met queue generalizing listed with
  | case1 =>
    rw [explodeFrom]
    exact Option.some.inj h
  | case2 => cases h
  | case3 n met id rest hmet ih => rw [explodeFrom, if_pos hmet, ih h]
  | case4 n met id rest hmet ih =>
    obtain ⟨behind, hbehind, rfl⟩ := Option.map_eq_some_iff.1 h
    rw [explodeFrom, if_neg hmet, ih hbehind]

/-! ## From one interface -/

theorem explode_of_within {id : TypeId} {listed : List TypeId} (n : Nat)
    (h : g.explodeWithin n [] [id] = some listed) : g.explode id = listed :=
  explodeFrom_of_within h

theorem mem_explode_self (g : TypeGraph) (id : TypeId) : id ∈ g.explode id := by
  rw [explode, explodeFrom, if_neg List.not_mem_nil]
  exact List.mem_cons_self

theorem reaches_of_mem_explode {id member : TypeId} (h : member ∈ g.explode id) :
    g.Reaches id member := by
  obtain ⟨a, ha, hreach⟩ := reaches_of_mem_explodeFrom h
  obtain rfl := List.mem_singleton.1 ha
  exact hreach

theorem explode_closed {id owner a : TypeId} (howner : owner ∈ g.explode id)
    (h : a ∈ g.embedded owner) :
    ∃ member ∈ g.explode id, g.structuralText member = g.structuralText a :=
  (accounted_of_mem_embedded howner h).resolve_left List.not_mem_nil

/-- A listed interface embeds `a`, but another with its text is taken for it. -/
def PassedOver (g : TypeGraph) (id a : TypeId) : Prop :=
  (∃ owner ∈ g.explode id, a ∈ g.embedded owner) ∧
    ∃ member ∈ g.explode id, member ≠ a ∧ g.structuralText member = g.structuralText a

theorem PassedOver.reaches {id a : TypeId} (h : g.PassedOver id a) : g.Reaches id a := by
  obtain ⟨⟨owner, howner, ha⟩, -⟩ := h
  exact (reaches_of_mem_explode howner).tail ha

/-- An interface `member` that `id` embeds at some depth is in `g.explode id`, or is below one that
is `PassedOver`. -/
theorem mem_explode_or_below {id member : TypeId} (h : g.Reaches id member) :
    member ∈ g.explode id ∨ ∃ a, g.PassedOver id a ∧ g.Reaches a member := by
  induction h with
  | refl => exact .inl (g.mem_explode_self id)
  | @tail owner b _ hb ih =>
    rcases ih with howner | ⟨a, hpassed, hreach⟩
    · obtain ⟨other, hother, htext⟩ := explode_closed howner hb
      by_cases heq : other = b
      · exact .inl (heq ▸ hother)
      · exact .inr ⟨b, ⟨⟨owner, howner, hb⟩, other, hother, heq, htext⟩, .refl⟩
    · exact .inr ⟨a, hpassed, hreach.tail hb⟩

/-- The `structuralText` of an interface below `id` decides the texts of those that it embeds. -/
def TextsDecideEmbedded (g : TypeGraph) (id : TypeId) : Prop :=
  ∀ a b, g.Reaches id a → g.Reaches id b → g.structuralText a = g.structuralText b →
    ∀ c ∈ g.embedded a, ∃ d ∈ g.embedded b, g.structuralText d = g.structuralText c

/-- Where texts decide what is embedded, `g.explode id` meets the text of every interface that `id`
reaches. -/
theorem TextsDecideEmbedded.exists_mem_explode {id member : TypeId}
    (htexts : g.TextsDecideEmbedded id) (h : g.Reaches id member) :
    ∃ a ∈ g.explode id, g.structuralText a = g.structuralText member := by
  induction h with
  | refl => exact ⟨id, g.mem_explode_self id, rfl⟩
  | @tail owner b howner hb ih =>
    obtain ⟨a, ha, htext⟩ := ih
    obtain ⟨c, hc, hcb⟩ := htexts owner a howner (reaches_of_mem_explode ha) htext.symm b hb
    obtain ⟨d, hd, hdc⟩ := explode_closed ha hc
    exact ⟨d, hd, hdc.trans hcb⟩

end Understudy.TypeGraph
