import Understudy.Proofs.Depths
import Understudy.Proofs.Explosion
import Understudy.Proofs.Lookups

/-!
# Graphs that agree on what a type is made of

Whatever is found out about a type is found among the types that it is made of. Two graphs that hold
the same nodes for these give the same answers, however many other types they hold and however deep
their recursions may go.

* `TypeGraph.AgreeFrom`: two graphs hold the same node for all that a type leads to.
* `TypeGraph.AgreeFrom.valid_eq`, `TypeGraph.AgreeFrom.interface?_eq`: the type is valid in both, or
  in none, and stands for the same interface.
* `TypeGraph.AgreeFrom.typeText?_eq`: it has the same text.
* `TypeGraph.AgreeFrom.explode_eq`: the same interfaces are found in it.
-/

namespace Understudy

/-- A relation `r'` that agrees with `r` on all that `r` reaches from `a` reaches the same from
`a`. -/
theorem reflTransGen_iff_of_agree {α : Type} {r r' : α → α → Prop} {a : α}
    (h : ∀ b, Relation.ReflTransGen r a b → ∀ c, r' b c ↔ r b c) {c : α} :
    Relation.ReflTransGen r' a c ↔ Relation.ReflTransGen r a c := by
  constructor
  · intro hreach
    induction hreach with
    | refl => exact .refl
    | @tail b c _ hbc ih => exact ih.tail ((h b ih c).1 hbc)
  · intro hreach
    induction hreach with
    | refl => exact .refl
    | @tail b c hb hbc ih => exact ih.tail ((h b hb c).2 hbc)

namespace TypeGraph

variable {g g' : TypeGraph} {id : TypeId}

/-- The two graphs hold the same node for everything that `id` leads to in the first. -/
def AgreeFrom (g g' : TypeGraph) (id : TypeId) : Prop :=
  ∀ a, g.Leads id a → g'.get? a = g.get? a

theorem Names.mem_references {a b : TypeId} (h : g.Names a b) : b ∈ g.references a := by
  obtain ⟨node, hnode, haliased⟩ := h
  refine mem_references_of_get? hnode ?_
  cases node with
  | named name package typeParams typeArgs underlying =>
    cases haliased
    exact List.mem_append_right _ List.mem_cons_self
  | aliasOf name package target =>
    cases haliased
    exact List.mem_cons_self
  | _ => cases haliased

theorem leads_of_names {a b : TypeId} (h : Relation.ReflTransGen g.Names a b) : g.Leads a b :=
  Relation.ReflTransGen.mono (fun _ _ => Names.mem_references) _ _ h

theorem leads_of_interface? {a b : TypeId} (h : g.interface? a = some b) : g.Leads a b := by
  obtain ⟨hunderlying, -⟩ := Option.filter_eq_some_iff.1 h
  exact leads_of_names (underlying?_eq_some_iff.1 hunderlying).1

theorem mem_references_of_embeddeds {methods : List MethodSpec} {embeddeds : List TypeId}
    {implicit : Bool} (hnode : g.get? id = some (.interface methods embeddeds implicit))
    {e : TypeId} (he : e ∈ embeddeds) : e ∈ g.references id :=
  mem_references_of_get? hnode (List.mem_append_right _ he)

theorem leads_of_mem_embedded {a b : TypeId} (h : b ∈ g.embedded a) : g.Leads a b := by
  unfold embedded at h
  split at h
  · rename_i methods embeddeds implicit hnode
    obtain ⟨e, he, hb⟩ := List.mem_filterMap.1 h
    exact .head (mem_references_of_embeddeds hnode he) (leads_of_interface? hb)
  · cases h

namespace AgreeFrom

theorem get?_eq (h : AgreeFrom g g' id) : g'.get? id = g.get? id :=
  h id .refl

theorem mono (h : AgreeFrom g g' id) {a : TypeId} (ha : g.Leads id a) : AgreeFrom g g' a :=
  fun b hb => h b (ha.trans hb)

theorem leads_iff (h : AgreeFrom g g' id) {a : TypeId} : g'.Leads id a ↔ g.Leads id a := by
  refine reflTransGen_iff_of_agree fun b hb c => ?_
  rw [references, references, (h.mono hb).get?_eq]

theorem valid_eq (h : AgreeFrom g g' id) : g'.valid id = g.valid id := by
  rw [Bool.eq_iff_iff, valid_iff_leads, valid_iff_leads]
  refine forall_congr' fun a => ?_
  rw [h.leads_iff]
  refine forall_congr' fun ha => ?_
  rw [(h.mono ha).get?_eq]

/-! ## Names and interfaces -/

theorem underlying?_eq (h : AgreeFrom g g' id) : g'.underlying? id = g.underlying? id := by
  have hchain : ∀ t, Relation.ReflTransGen g'.Names id t ↔ Relation.ReflTransGen g.Names id t := by
    refine fun t => reflTransGen_iff_of_agree fun b hb c => ?_
    rw [Names, Names, (h.mono (leads_of_names hb)).get?_eq]
  ext t
  rw [underlying?_eq_some_iff, underlying?_eq_some_iff, hchain t]
  refine and_congr_right fun ht => ?_
  rw [Unnamed, Unnamed, (h.mono (leads_of_names ht)).get?_eq]

theorem isInterface_eq (h : AgreeFrom g g' id) : g'.isInterface id = g.isInterface id := by
  rw [isInterface, isInterface, h.get?_eq]

theorem interface?_eq (h : AgreeFrom g g' id) : g'.interface? id = g.interface? id := by
  rw [interface?, interface?, h.underlying?_eq]
  cases hunderlying : g.underlying? id with
  | none => rfl
  | some t =>
    have ht := leads_of_names (underlying?_eq_some_iff.1 hunderlying).1
    simp only [Option.filter_some, (h.mono ht).isInterface_eq]

theorem embedded_eq (h : AgreeFrom g g' id) : g'.embedded id = g.embedded id := by
  unfold embedded
  rw [h.get?_eq]
  split
  · rename_i methods embeddeds implicit hnode
    refine List.filterMap_congr fun e he => ?_
    exact (h.mono (.single (mem_references_of_embeddeds hnode he))).interface?_eq
  · rfl

/-! ## Texts -/

/-- `id` has the same tokens in `g` and `g'`, or none in both, though each graph has a `depth` of
its own. -/
theorem tokens?_depth_eq (h : AgreeFrom g g' id) :
    g'.tokens? g'.depth [] id = g.tokens? g.depth [] id := by
  ext ts
  rw [tokens?_depth_iff, tokens?_depth_iff]
  simp only [tokens?_of_looksUp fun a ha => h a ha.leads]

theorem tokens_eq (h : AgreeFrom g g' id) : g'.tokens id = g.tokens id := by
  rw [tokens, tokens, h.tokens?_depth_eq]

theorem typeText?_eq {σ : Type} (h : AgreeFrom g g' id) (q : Qualifier σ) :
    g'.typeText? q id = g.typeText? q id := by
  funext s
  rw [typeText?, typeText?, write?_eq, write?_eq, h.tokens?_depth_eq]

theorem structuralText?_eq (h : AgreeFrom g g' id) :
    g'.structuralText? id = g.structuralText? id := by
  rw [structuralText?, structuralText?, h.typeText?_eq]

theorem structuralText_eq (h : AgreeFrom g g' id) : g'.structuralText id = g.structuralText id := by
  rw [structuralText, structuralText, h.structuralText?_eq]

theorem hasText_eq (h : AgreeFrom g g' id) : g'.hasText id = g.hasText id := by
  rw [hasText, hasText, h.structuralText?_eq]

theorem explodeFrom_eq {met : List String} {queue : List TypeId}
    (h : ∀ a ∈ queue, AgreeFrom g g' a) : g'.explodeFrom met queue = g.explodeFrom met queue := by
  fun_induction explodeFrom g met queue with
  | case1 => rw [explodeFrom]
  | case2 met id rest hmet ih =>
    have hid := h id List.mem_cons_self
    rw [explodeFrom, hid.structuralText_eq, if_pos hmet]
    exact ih fun a ha => h a (List.mem_cons_of_mem _ ha)
  | case3 met id rest hmet ih =>
    have hid := h id List.mem_cons_self
    rw [explodeFrom, hid.structuralText_eq, if_neg hmet, hid.embedded_eq, ih]
    intro a ha
    rcases List.mem_append.1 ha with ha | ha
    · exact h a (List.mem_cons_of_mem _ ha)
    · exact hid.mono (leads_of_mem_embedded ha)

theorem explode_eq (h : AgreeFrom g g' id) : g'.explode id = g.explode id := by
  refine explodeFrom_eq fun a ha => ?_
  obtain rfl := List.mem_singleton.1 ha
  exact h

end AgreeFrom

end TypeGraph

end Understudy
