import Understudy.Proofs.Agreement

/-!
# Graphs that grow

A node that is added stands behind all others, so every number keeps the node that it had. What a
number out of range stands for may change, but a valid type leads to none. So nothing that can be
found out about a valid type changes, although the bounds of the recursions grow with the graph.

* `TypeGraph.Extends`: a graph with all the nodes of another, by the same numbers.
* `TypeGraph.Extends.agreeFrom`: it agrees with the other on the valid types.
* `TypeGraph.add_keeps_valid`: what an added node leaves as it was.
-/

namespace Understudy.TypeGraph

variable {g g' : TypeGraph} {id : TypeId}

/-- Every number that stands for a node of `g` stands for the same node of `g'`. -/
def Extends (g' g : TypeGraph) : Prop :=
  ∀ a node, g.get? a = some node → g'.get? a = some node

theorem extends_add (g : TypeGraph) (node : TypeNode) : (g.add node).1.Extends g := by
  intro a old hold
  have hlt : a.toNat < g.nodes.size := (Array.getElem?_eq_some_iff.1 hold).1
  rw [get?, add, Array.getElem?_push_lt hlt, ← hold, get?, Array.getElem?_eq_getElem hlt]

/-- A valid type `id` leads only to numbers that stand for nodes of `g` already. -/
theorem Extends.agreeFrom (h : g'.Extends g) (hvalid : g.valid id = true) : AgreeFrom g g' id := by
  intro a ha
  obtain ⟨node, hnode, -⟩ := valid_iff_leads.1 hvalid a ha
  rw [hnode]
  exact h a node hnode

/-- After `node` was added to `g`, a valid type `id` stands for the same type as before, is valid,
has the same text through every qualifier, or none in both graphs, and embeds the same
interfaces. -/
theorem add_keeps_valid (g : TypeGraph) (node : TypeNode) {id : TypeId}
    (h : g.valid id = true) :
    (g.add node).1.underlying? id = g.underlying? id ∧
      (g.add node).1.valid id = g.valid id ∧
      (g.add node).1.structuralText id = g.structuralText id ∧
      (∀ (σ : Type) (q : Qualifier σ), (g.add node).1.typeText? q id = g.typeText? q id) ∧
      (g.add node).1.explode id = g.explode id := by
  have hagree := (g.extends_add node).agreeFrom h
  exact ⟨hagree.underlying?_eq, hagree.valid_eq, hagree.structuralText_eq,
    fun σ q => hagree.typeText?_eq q, hagree.explode_eq⟩

/-- The interface `Node` has a method that takes a `Node`. The pointer 3 is one to a type that is
not there yet. -/
def unfinished : TypeGraph where
  nodes := #[
    .signature [⟨"next", 2⟩] [] false,
    .interface [⟨"Link", 0, ⟨0, 2, 1⟩⟩] [] false,
    .named "Node" none [] [] 1,
    .pointer 4]

/-- The type that is added makes the pointer valid. `Node` leads round to itself and not there, so
nothing changes about it. -/
theorem add_keeps_valid_unfinished :
    unfinished.valid 2 = true ∧
      (unfinished.valid 3 = false ∧ (unfinished.add (.slice 2)).1.valid 3 = true) ∧
      (unfinished.add (.slice 2)).1.underlying? 2 = unfinished.underlying? 2 ∧
      (unfinished.add (.slice 2)).1.explode 1 = unfinished.explode 1 := by
  have hnode : unfinished.valid 2 = true := valid_of_closed [0, 1, 2] rfl (by decide)
  have hinterface : unfinished.valid 1 = true := valid_of_closed [0, 1, 2] rfl (by decide)
  have hfinished : (unfinished.add (.slice 2)).1.valid 3 = true :=
    valid_of_closed [0, 1, 2, 3, 4] rfl (by decide)
  have hpointer : unfinished.valid 3 = false := by
    refine Bool.eq_false_iff.2 fun hvalid => ?_
    obtain ⟨node, hnode, -⟩ := valid_iff_leads.1 hvalid 4 (.single List.mem_cons_self)
    cases hnode
  obtain ⟨hunderlying, -⟩ := unfinished.add_keeps_valid (.slice 2) hnode
  obtain ⟨-, -, -, -, hexplode⟩ := unfinished.add_keeps_valid (.slice 2) hinterface
  exact ⟨hnode, ⟨hpointer, hfinished⟩, hunderlying, hexplode⟩

end Understudy.TypeGraph
