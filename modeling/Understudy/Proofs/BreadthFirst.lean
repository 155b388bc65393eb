import Mathlib.Order.Nat
import Understudy.Proofs.Depths
import Understudy.Proofs.Explosion
import Understudy.Proofs.Shape

/-!
# The order of the walk over embedded interfaces

`TypeGraph.explode` keeps a queue of interfaces that it has yet to look at. Each of them stands
there for a place: an interface that is listed already, and a type among those that it embeds. The
places in the queue ascend, and all of them come before those that are added behind. So the
interfaces are listed in the order of the places where they were met.

* `TypeGraph.ResolvesTo`: a type stands for an interface, through any number of names.
* `TypeGraph.BreadthFirst`: every interface of a list but the first has a place in an earlier one,
  and the places ascend.
* `TypeGraph.Queued`, `TypeGraph.Queued.list`: the places in the queue, and what listing one more
  interface does to them.
* `TypeGraph.explodeFrom_places`: the places of what is listed from a queue on.
* `TypeGraph.explode_lists_breadthFirst`: the list that the walk makes.
-/

namespace Understudy.TypeGraph

variable {g : TypeGraph}

/-! ## What is embedded -/

/-- The type stands for the interface `b`, through any number of names. -/
def ResolvesTo (g : TypeGraph) (a b : TypeId) : Prop :=
  Relation.ReflTransGen g.Names a b ∧ g.isInterface b = true

/-- The types that the interface `id` names as embedded, whatever they stand for. -/
def embeddeds (g : TypeGraph) (id : TypeId) : List TypeId :=
  ((g.get? id).bind TypeNode.embeddeds?).getD []

theorem unnamed_of_isInterface {id : TypeId} (h : g.isInterface id = true) : g.Unnamed id := by
  rw [isInterface, Option.any_eq_true] at h
  obtain ⟨node, hnode, hinterface⟩ := h
  refine ⟨node, hnode, ?_⟩
  cases node <;> first | rfl | cases hinterface

theorem interface?_eq_some_iff {a b : TypeId} : g.interface? a = some b ↔ g.ResolvesTo a b := by
  rw [interface?, Option.filter_eq_some_iff, underlying?_eq_some_iff]
  constructor
  · rintro ⟨⟨hnames, -⟩, hb⟩
    exact ⟨hnames, hb⟩
  · rintro ⟨hnames, hb⟩
    exact ⟨⟨hnames, unnamed_of_isInterface hb⟩, hb⟩

theorem mem_embedded_iff {owner a : TypeId} :
    a ∈ g.embedded owner ↔ ∃ e ∈ g.embeddeds owner, g.ResolvesTo e a := by
  simp only [embedded_eq, List.mem_filterMap, interface?_eq_some_iff, embeddeds]

theorem isInterface_of_reaches {id member : TypeId} (hid : g.isInterface id = true)
    (h : g.Reaches id member) : g.isInterface member = true := by
  cases h with
  | refl => exact hid
  | tail _ hb =>
    obtain ⟨_, -, -, hmember⟩ := mem_embedded_iff.1 hb
    exact hmember

/-! ## Texts -/

theorem texts_explodeFrom_nodup (g : TypeGraph) (met : List String) (queue : List TypeId) :
    ((g.explodeFrom met queue).map g.structuralText).Nodup ∧
      ∀ text ∈ met, text ∉ (g.explodeFrom met queue).map g.structuralText := by
  fun_induction explodeFrom g met queue with
  | case1 => simp
  | case2 met id rest hmet ih => exact ih
  | case3 met id rest hmet ih =>
    obtain ⟨hnodup, hdisjoint⟩ := ih
    rw [List.map_cons]
    refine ⟨List.nodup_cons.2 ⟨hdisjoint _ List.mem_cons_self, hnodup⟩, ?_⟩
    intro text htext hmem
    rcases List.mem_cons.1 hmem with rfl | hmem
    · exact hmet htext
    · exact hdisjoint text (List.mem_cons_of_mem _ htext) hmem

/-! ## Places -/

/-- `member` is what stands at `place`: `place.1` is the index of an interface in `listed`, and
`place.2` that of a type among its `embeddeds`. -/
def Placed (g : TypeGraph) (listed : List TypeId) (place : Nat × Nat) (member : TypeId) : Prop :=
  ∃ owner e, listed[place.1]? = some owner ∧ (g.embeddeds owner)[place.2]? = some e ∧
    g.ResolvesTo e member

theorem Placed.append {listed : List TypeId} {place : Nat × Nat} {member : TypeId}
    (h : g.Placed listed place member) (more : List TypeId) :
    g.Placed (listed ++ more) place member := by
  obtain ⟨owner, e, howner, he, hmember⟩ := h
  have hlt := (List.getElem?_eq_some_iff.1 howner).1
  exact ⟨owner, e, by rw [List.getElem?_append_left hlt, howner], he, hmember⟩

/-- The items of `l.filterMap f` have places in `l`, which ascend. -/
theorem exists_places_filterMap {α β : Type} (f : α → Option β) (l : List α) :
    ∃ js : List Nat, js.Pairwise (· < ·) ∧
      List.Forall₂ (fun j b => ∃ a, l[j]? = some a ∧ f a = some b) js (l.filterMap f) := by
  induction l with
  | nil => exact ⟨[], .nil, .nil⟩
  | cons a l ih =>
    obtain ⟨js, hsorted, hjs⟩ := ih
    have hsucc : (js.map Nat.succ).Pairwise (· < ·) :=
      List.pairwise_map.2 (hsorted.imp Nat.succ_lt_succ)
    have hrest : List.Forall₂ (fun j b => ∃ x, (a :: l)[j]? = some x ∧ f x = some b)
        (js.map Nat.succ) (l.filterMap f) :=
      List.forall₂_map_left_iff.2 hjs
    cases hfa : f a with
    | none => exact ⟨js.map Nat.succ, hsucc, by rwa [List.filterMap_cons_none hfa]⟩
    | some b =>
      refine ⟨0 :: js.map Nat.succ, List.pairwise_cons.2 ⟨by simp, hsucc⟩, ?_⟩
      rw [List.filterMap_cons_some hfa]
      exact .cons ⟨a, rfl, hfa⟩ hrest

/-- What `id` embeds has ascending places in `before ++ [id]`, all of them in its last interface. -/
theorem exists_places_embedded (before : List TypeId) (id : TypeId) :
    ∃ places : List (Nat × Nat), places.Pairwise (Prod.Lex (· < ·) (· < ·)) ∧
      (∀ place ∈ places, place.1 = before.length) ∧
      List.Forall₂ (g.Placed (before ++ [id])) places (g.embedded id) := by
  obtain ⟨js, hsorted, hjs⟩ := exists_places_filterMap g.interface? (g.embeddeds id)
  refine ⟨js.map (before.length, ·), ?_, by simp, ?_⟩
  · exact List.pairwise_map.2 (hsorted.imp fun h => .right _ h)
  · rw [embedded_eq]
    refine List.forall₂_map_left_iff.2 (hjs.imp ?_)
    rintro j member ⟨e, he, hmember⟩
    exact ⟨id, e, by simp, he, interface?_eq_some_iff.1 hmember⟩

/-- The interfaces of `queue` have the `places` in `before`, the list so far, and these ascend. -/
structure Queued (g : TypeGraph) (before : List TypeId) (places : List (Nat × Nat))
    (queue : List TypeId) : Prop where
  placed : List.Forall₂ (g.Placed before) places queue
  ascending : places.Pairwise (Prod.Lex (· < ·) (· < ·))
  earlier : ∀ place ∈ places, place.1 < before.length

theorem Queued.tail {before rest : List TypeId} {place : Nat × Nat} {places : List (Nat × Nat)}
    {id : TypeId} (h : g.Queued before (place :: places) (id :: rest)) :
    g.Queued before places rest where
  placed := (List.forall₂_cons.1 h.placed).2
  ascending := (List.pairwise_cons.1 h.ascending).2
  earlier p hp := h.earlier p (List.mem_cons_of_mem _ hp)

/-- When `id` is listed behind `before`, `g.embedded id` gets places behind all `places` of the
queue. -/
theorem Queued.list {before rest : List TypeId} {places : List (Nat × Nat)}
    (h : g.Queued before places rest) (id : TypeId) :
    ∃ new, g.Queued (before ++ [id]) (places ++ new) (rest ++ g.embedded id) ∧
      ∀ place ∈ new, place.1 = before.length := by
  obtain ⟨new, hascending, howner, hnew⟩ := exists_places_embedded (g := g) before id
  refine ⟨new, ⟨?_, ?_, ?_⟩, howner⟩
  · exact List.rel_append (h.placed.imp fun _ _ hplaced => hplaced.append [id]) hnew
  · refine List.pairwise_append.2 ⟨h.ascending, hascending, fun p hp p' hp' => .left _ _ ?_⟩
    rw [howner p' hp']
    exact h.earlier p hp
  · intro p hp
    rw [List.length_append, List.length_singleton]
    rcases List.mem_append.1 hp with hp | hp
    · exact Nat.lt_succ_of_lt (h.earlier p hp)
    · rw [howner p hp]
      exact Nat.lt_succ_self _

/-- All of `g.explodeFrom met queue` has ascending places, each in an interface that is listed
before. A place is one of `places`, or lies in an interface that was listed after the queue was
made. -/
theorem explodeFrom_places (met : List String) {queue before : List TypeId}
    {places : List (Nat × Nat)} (h : g.Queued before places queue) :
    ∃ found : List (Nat × Nat), found.Pairwise (Prod.Lex (· < ·) (· < ·)) ∧
      List.Forall₂ (g.Placed (before ++ g.explodeFrom met queue)) found (g.explodeFrom met queue) ∧
      (∀ k place, found[k]? = some place → place.1 < before.length + k) ∧
      ∀ place ∈ found, place ∈ places ∨ before.length ≤ place.1 := by
  fun_induction explodeFrom g met queue generalizing before places with
  | case1 => exact ⟨[], .nil, .nil, by simp, by simp⟩
  | case2 met id rest hmet ih =>
    obtain ⟨place, places, -, -, rfl⟩ := List.forall₂_cons_right_iff.1 h.placed
    obtain ⟨found, hascending, hplaced, hearlier, hmem⟩ := ih h.tail
    exact ⟨found, hascending, hplaced, hearlier,
      fun p hp => (hmem p hp).imp_left (List.mem_cons_of_mem _)⟩
  | case3 met id rest hmet ih =>
    obtain ⟨place, places, hid, -, rfl⟩ := List.forall₂_cons_right_iff.1 h.placed
    have hplace := h.earlier place List.mem_cons_self
    obtain ⟨new, hqueued, howner⟩ := h.tail.list id
    obtain ⟨found, hascending, hplaced, hearlier, hmem⟩ := ih hqueued
    rw [List.append_assoc, List.singleton_append] at hplaced
    simp only [List.length_append, List.length_singleton] at hearlier hmem
    have hlater : ∀ p ∈ found, p ∈ places ∨ before.length ≤ p.1 := by
      intro p hp
      rcases hmem p hp with hp | hp
      · exact (List.mem_append.1 hp).imp_right fun hp => (howner p hp).ge
      · exact .inr (Nat.le_of_succ_le hp)
    refine ⟨place :: found, List.pairwise_cons.2 ⟨?_, hascending⟩, .cons (hid.append _) hplaced,
      ?_, ?_⟩
    · -- the first of the queue comes before what is left of it, and before all that comes later
      intro p hp
      rcases hlater p hp with hp | hp
      · exact (List.pairwise_cons.1 h.ascending).1 p hp
      · exact .left _ _ (Nat.lt_of_lt_of_le hplace hp)
    · intro k p hk
      cases k with
      | zero =>
        obtain rfl := Option.some.inj hk
        exact hplace
      | succ k =>
        have hlt := hearlier k p hk
        omega
    · intro p hp
      rcases List.mem_cons.1 hp with rfl | hp
      · exact .inl List.mem_cons_self
      · exact (hlater p hp).imp_left (List.mem_cons_of_mem _)

/-! ## The list of the walk -/

/-- Every interface of `listed` but the first has a place in an earlier one, and the places ascend,
first by the earlier interface and then by its `embeddeds`. -/
def BreadthFirst (g : TypeGraph) (listed : List TypeId) : Prop :=
  ∃ places : List (Nat × Nat), places.Pairwise (Prod.Lex (· < ·) (· < ·)) ∧
    List.Forall₂ (g.Placed listed) places listed.tail ∧
    ∀ (k : Nat) (place : Nat × Nat), places[k]? = some place → place.1 ≤ k

theorem explode_eq_cons (g : TypeGraph) (id : TypeId) :
    g.explode id = id :: g.explodeFrom [g.structuralText id] (g.embedded id) := by
  rw [explode, explodeFrom, if_neg List.not_mem_nil, List.nil_append]

theorem explode_breadthFirst (g : TypeGraph) (id : TypeId) : g.BreadthFirst (g.explode id) := by
  have hnone : g.Queued [] [] [] := ⟨.nil, .nil, by simp⟩
  obtain ⟨new, hqueued, -⟩ := hnone.list id
  obtain ⟨found, hascending, hplaced, hearlier, -⟩ :=
    explodeFrom_places [g.structuralText id] hqueued
  rw [explode_eq_cons]
  refine ⟨found, hascending, hplaced, fun k p hk => ?_⟩
  have hlt : p.1 < 1 + k := hearlier k p hk
  omega

/-- From an interface `id`, `g.explode id` lists interfaces only, `id` first, no two with the same
`structuralText`. If a listed interface embeds another, one with its text is listed. The list is
`BreadthFirst`: it has the order of the places where its interfaces are met. -/
theorem explode_lists_breadthFirst {id : TypeId} (h : g.isInterface id = true) :
    (g.explode id).head? = some id ∧
      (∀ member ∈ g.explode id, g.isInterface member = true) ∧
      ((g.explode id).map g.structuralText).Nodup ∧
      (∀ owner ∈ g.explode id, ∀ e ∈ g.embeddeds owner, ∀ a, g.ResolvesTo e a →
        ∃ member ∈ g.explode id, g.structuralText member = g.structuralText a) ∧
      g.BreadthFirst (g.explode id) := by
  refine ⟨?_, ?_, (g.texts_explodeFrom_nodup [] [id]).1, ?_, g.explode_breadthFirst id⟩
  · rw [explode_eq_cons]
    rfl
  · intro member hmember
    exact isInterface_of_reaches h (reaches_of_mem_explode hmember)
  · intro owner howner e he a ha
    exact explode_closed howner (mem_embedded_iff.2 ⟨e, he, ha⟩)

/-- The interface `5` embeds `4` and, by its name, `1`. The interface `4` embeds `1` through an
alias, `5` by its name, and then `7`. -/
def circular : TypeGraph where
  nodes := #[
    .signature [] [] false,
    .interface [⟨"M", 0, ⟨0, 1, 1⟩⟩] [] false,
    .named "A" none [] [] 1,
    .aliasOf "B" none 2,
    .interface [⟨"N", 0, ⟨0, 2, 1⟩⟩] [3, 6, 7] false,
    .interface [] [4, 2] false,
    .named "I" none [] [] 5,
    .interface [⟨"K", 0, ⟨0, 3, 1⟩⟩] [] false]

theorem explode_circular : circular.explode 5 = [5, 4, 1, 7] :=
  explode_of_within 8 rfl

/-- In `circular` the interface `1` is met as the second that `5` embeds, before it is met again
below `4`. -/
theorem explode_lists_breadthFirst_circular :
    circular.isInterface 5 = true ∧ circular.explode 5 = [5, 4, 1, 7] ∧
      ([5, 4, 1, 7].map circular.structuralText).Nodup ∧ circular.BreadthFirst [5, 4, 1, 7] := by
  have hid : circular.isInterface 5 = true := rfl
  obtain ⟨-, -, hnodup, -, hplaces⟩ := explode_lists_breadthFirst hid
  rw [explode_circular] at hnodup hplaces
  exact ⟨hid, explode_circular, hnodup, hplaces⟩

end Understudy.TypeGraph
