import Understudy.Graph

/-!
# Valid types

A type is valid if everything it is made of, to any depth, is in the graph and was resolved. The
walk crosses cycles, since it visits each node once.
-/

namespace Understudy.TypeGraph

/-- The types that `id` is made of directly. -/
def references (g : TypeGraph) (id : TypeId) : List TypeId :=
  match g.get? id with
  | some node => node.references
  | none => []

/-- The numbers of `domain` met on a walk that starts with `pending`. Each step takes the number it
visits out of the domain. -/
def walk (g : TypeGraph) (domain pending : List TypeId) : List TypeId :=
  match pending with
  | [] => []
  | id :: rest =>
    if id ∈ domain then id :: walk g (domain.erase id) (g.references id ++ rest)
    else walk g domain rest
termination_by (domain.length, pending.length)
decreasing_by
  · rename_i h
    have := List.length_erase_of_mem h
    have := List.length_pos_of_mem h
    exact Prod.Lex.left _ _ (by omega)
  · exact Prod.Lex.right _ (by simp)

/-- The types of the graph that `id` is made of, itself included, to any depth. -/
def reachable (g : TypeGraph) (id : TypeId) : List TypeId :=
  g.walk g.ids [id]

/-- Whether `id` stands for a type that was resolved and that refers only to types of `g`. -/
def isResolved (g : TypeGraph) (id : TypeId) : Bool :=
  (g.get? id).any fun node => node != .basic .invalid && node.references.all g.contains

/-- Whether `id` is in `g` and everything it is made of was resolved. -/
def valid (g : TypeGraph) (id : TypeId) : Bool :=
  g.contains id && (g.reachable id).all g.isResolved

end Understudy.TypeGraph
