import Understudy.Graph.Embedding

/-!
# Graphs of the same shape

What a name stands for and which interfaces an interface embeds is read off two things: where named
types and aliases point, and what interfaces list. Graphs that agree on these, up to how types are
numbered, agree on everything that is found by following names and embeddings.

* `TypeGraph.SameShape`: two graphs whose names and embeddings correspond.
* `TypeGraph.SameShape.interface?_eq`: a type stands for corresponding interfaces.
* `TypeGraph.SameShape.embedded_eq`: an interface embeds corresponding interfaces.
-/

namespace Understudy

/-- What an `interface` lists as embedded, interfaces or not. -/
def TypeNode.embeddeds? : TypeNode → Option (List TypeId)
  | .interface _ embeddeds _ => some embeddeds
  | _ => none

theorem TypeNode.isInterface_eq (node : TypeNode) :
    node.isInterface = node.embeddeds?.isSome := by
  cases node <;> rfl

namespace TypeGraph

/-- Type `id` of `g` is type `f id` of `g'`, as far as names and embeddings go. -/
structure SameShape (f : TypeId → TypeId) (g g' : TypeGraph) : Prop where
  size_eq : g'.size = g.size
  aliased?_eq : ∀ id,
    (g'.get? (f id)).map TypeNode.aliased? = (g.get? id).map fun node => node.aliased?.map f
  embeddeds?_eq : ∀ id,
    (g'.get? (f id)).bind TypeNode.embeddeds? =
      ((g.get? id).bind TypeNode.embeddeds?).map (List.map f)

theorem isInterface_eq (g : TypeGraph) (id : TypeId) :
    g.isInterface id = ((g.get? id).bind TypeNode.embeddeds?).isSome := by
  unfold isInterface
  cases g.get? id with
  | none => rfl
  | some node => exact node.isInterface_eq

theorem embedded_eq (g : TypeGraph) (id : TypeId) :
    g.embedded id = (((g.get? id).bind TypeNode.embeddeds?).getD []).filterMap g.interface? := by
  unfold embedded
  cases g.get? id with
  | none => rfl
  | some node => cases node <;> rfl

namespace SameShape

variable {f : TypeId → TypeId} {g g' : TypeGraph}

theorem isInterface_eq (h : SameShape f g g') (id : TypeId) :
    g'.isInterface (f id) = g.isInterface id := by
  rw [TypeGraph.isInterface_eq, TypeGraph.isInterface_eq, h.embeddeds?_eq, Option.isSome_map]

theorem follow_eq (h : SameShape f g g') (n : Nat) (id : TypeId) :
    g'.follow n (f id) = (g.follow n id).map f := by
  induction n generalizing id with
  | zero => rfl
  | succ n ih =>
    have haliased := h.aliased?_eq id
    rw [follow, follow]
    cases hnode : g.get? id with
    | none =>
      rw [hnode, Option.map_none, Option.map_eq_none_iff] at haliased
      rw [haliased]
      rfl
    | some node =>
      rw [hnode, Option.map_some, Option.map_eq_some_iff] at haliased
      obtain ⟨node', hnode', haliased⟩ := haliased
      simp only [hnode', haliased]
      cases node.aliased? with
      | none => rfl
      | some next => exact ih next

theorem interface?_eq (h : SameShape f g g') (id : TypeId) :
    g'.interface? (f id) = (g.interface? id).map f := by
  have hisInterface : g'.isInterface ∘ f = g.isInterface := funext h.isInterface_eq
  rw [interface?, interface?, underlying?, underlying?, h.size_eq, h.follow_eq, Option.filter_map,
    hisInterface]

theorem embedded_eq (h : SameShape f g g') (id : TypeId) :
    g'.embedded (f id) = (g.embedded id).map f := by
  have hinterface : g'.interface? ∘ f = fun id => (g.interface? id).map f :=
    funext h.interface?_eq
  rw [TypeGraph.embedded_eq, TypeGraph.embedded_eq, h.embeddeds?_eq, List.map_filterMap]
  cases (g.get? id).bind TypeNode.embeddeds? with
  | none => rfl
  | some embeddeds =>
    show (embeddeds.map f).filterMap g'.interface? = _
    rw [List.filterMap_map, hinterface]
    rfl

end SameShape

end TypeGraph

end Understudy
