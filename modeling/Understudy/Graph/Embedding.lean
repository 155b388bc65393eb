import Understudy.TypeText.Writer

/-!
# Embedded interfaces

An interface has its own methods and those of the interfaces that it embeds, to any depth. They are
listed breadth first, and of those with the same text only the first. The walk `explodeFrom` is made
with `structuralText`, and `explode?` says whether that stood for a text each time.
-/

namespace Understudy.TypeGraph

/-- The interfaces that `id` embeds directly, through named types and aliases. Terms of a type set
are not among them. -/
def embedded (g : TypeGraph) (id : TypeId) : List TypeId :=
  match g.get? id with
  | some (.interface _ embeddeds _) => embeddeds.filterMap g.interface?
  | _ => []

/-- The types of `g` whose text is not in `met`. -/
def unmet (g : TypeGraph) (met : List String) : List TypeId :=
  g.ids.filter fun id => g.structuralText id ∉ met

theorem mem_ids_of_get? {g : TypeGraph} {id : TypeId} {node : TypeNode}
    (h : g.get? id = some node) : id ∈ g.ids := by
  have hlt : id.toNat < g.nodes.size := by
    rw [get?] at h
    exact (Array.getElem?_eq_some_iff.1 h).1
  exact List.mem_map.2 ⟨id.toNat, List.mem_range.2 hlt, UInt32.ofNat_toNat⟩

theorem unmet_cons (g : TypeGraph) (met : List String) (s : String) :
    g.unmet (s :: met) = (g.unmet met).filter fun id => g.structuralText id ≠ s := by
  rw [unmet, unmet, List.filter_filter]
  exact List.filter_congr fun id _ => by simp [not_or]

/-- A type `id` that embeds something is in `g`, so its text was among those not met. -/
theorem unmet_cons_length_lt {g : TypeGraph} {met : List String} {id : TypeId}
    (hid : id ∈ g.ids) (h : g.structuralText id ∉ met) :
    (g.unmet (g.structuralText id :: met)).length < (g.unmet met).length := by
  rw [unmet_cons]
  refine List.length_filter_lt_length_iff_exists.2 ⟨id, ?_, by simp⟩
  simp [unmet, hid, h]

theorem get?_of_embedded_ne_nil {g : TypeGraph} {id : TypeId} (h : g.embedded id ≠ []) :
    ∃ node, g.get? id = some node := by
  unfold embedded at h
  split at h
  · exact ⟨_, by assumption⟩
  · exact absurd rfl h

/-- The interfaces met from `queue` on, given the texts met before. -/
def explodeFrom (g : TypeGraph) (met : List String) (queue : List TypeId) : List TypeId :=
  match queue with
  | [] => []
  | id :: rest =>
    if g.structuralText id ∈ met then explodeFrom g met rest
    else id :: explodeFrom g (g.structuralText id :: met) (rest ++ g.embedded id)
termination_by ((g.unmet met).length, queue.length)
decreasing_by
  · exact Prod.Lex.right _ (by simp)
  · rename_i h
    by_cases he : g.embedded id = []
    · rcases Nat.lt_or_eq_of_le (unmet_cons g met (g.structuralText id) ▸
        List.length_filter_le _ _ : (g.unmet (g.structuralText id :: met)).length ≤ _) with hl | hl
      · exact Prod.Lex.left _ _ hl
      · rw [hl]; exact Prod.Lex.right _ (by simp [he])
    · obtain ⟨node, hn⟩ := get?_of_embedded_ne_nil he
      exact Prod.Lex.left _ _ (unmet_cons_length_lt (mem_ids_of_get? hn) h)

/-- The interface `id` itself and all that it embeds, breadth first, without repetition. -/
def explode (g : TypeGraph) (id : TypeId) : List TypeId :=
  g.explodeFrom [] [id]

/-- The interfaces whose texts the walk from `id` compares with those it met: `id` itself, and what
each interface of the list embeds. -/
def comparedTypes (g : TypeGraph) (id : TypeId) : List TypeId :=
  id :: (g.explode id).flatMap g.embedded

/-- The list `g.explode id`, if the walk comes to an end. It does not where it compares an interface
that has no text. -/
def explode? (g : TypeGraph) (id : TypeId) : Option (List TypeId) :=
  if (g.comparedTypes id).all g.hasText then some (g.explode id) else none

end Understudy.TypeGraph
