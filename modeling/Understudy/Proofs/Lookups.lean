import Understudy.Proofs.Reachability
import Understudy.Proofs.Spelling

/-!
# Types that are looked up

What the writer of a type looks up, step by step: the type itself, what it has to see of other types
before it can cut the node into parts, and what the types among the parts look up in turn. A node
that is met again while it is being written is looked up and not entered.

* `TypeGraph.peeks`: the types looked up to cut a node into parts.
* `TypeGraph.LooksUp`: the types looked up to write a type.
* `TypeGraph.tokens?_of_looksUp`: nothing else plays a part in what is written.
* `TypeGraph.LooksUp.leads`: a type is made of all that is looked up to write it.
-/

namespace Understudy.TypeGraph

variable {g g' : TypeGraph}

/-- The type of the slot of `vars` that takes the remaining arguments, if there is one. -/
def spreadType (variadic : Bool) (vars : List Var) : List TypeId :=
  if variadic then vars.getLast?.toList.map (·.type) else []

/-- The types looked up to write the slots of the signature `id` of a method: `id` itself, and the
type of the slot that takes the remaining arguments. -/
def signaturePeeks (g : TypeGraph) (id : TypeId) : List TypeId :=
  id ::
    match g.get? id with
    | some (.signature params _ variadic) => spreadType variadic params
    | _ => []

/-- The types that `parts` looks up to cut a node, before any of the types in it is written. -/
def peeks (g : TypeGraph) : TypeNode → List TypeId
  | .signature params _ variadic => spreadType variadic params
  | .interface methods _ _ => methods.flatMap fun m => g.signaturePeeks m.signature
  | .chan .both elem => [elem]
  | _ => []

/-- `LooksUp g active id a`: the type `a` is looked up while `id` is written inside the types of
`active`. -/
inductive LooksUp (g : TypeGraph) : List TypeId → TypeId → TypeId → Prop
  | self (active : List TypeId) (id : TypeId) : LooksUp g active id id
  | peek {active : List TypeId} {id a : TypeId} {node : TypeNode} (hnode : g.get? id = some node)
      (hactive : id ∉ active) (ha : a ∈ g.peeks node) : LooksUp g active id a
  | inside {active : List TypeId} {id t a : TypeId} {node : TypeNode}
      (hnode : g.get? id = some node) (hactive : id ∉ active) (ht : .type t ∈ g.parts node)
      (ha : LooksUp g (node.enter id active) t a) : LooksUp g active id a

/-! ## Nothing else plays a part -/

theorem varParts_of_spread {spread : Bool} {v : Var}
    (h : spread = true → g'.get? v.type = g.get? v.type) :
    g'.varParts spread v = g.varParts spread v := by
  cases spread with
  | false => rfl
  | true =>
    unfold varParts
    rw [h rfl]

theorem varsParts_of_spread {variadic : Bool} {vars : List Var}
    (h : ∀ a ∈ spreadType variadic vars, g'.get? a = g.get? a) :
    g'.varsParts variadic vars = g.varsParts variadic vars := by
  induction vars with
  | nil => rfl
  | cons v vs ih =>
    cases vs with
    | nil =>
      have hv : variadic = true → g'.get? v.type = g.get? v.type := by
        rintro rfl
        exact h v.type List.mem_cons_self
      simp only [varsParts, varParts_of_spread hv]
    | cons w ws =>
      have hrest := ih h
      simp only [varsParts] at hrest ⊢
      rw [hrest]
      rfl

theorem tupleParts_of_spread {variadic : Bool} {vars : List Var}
    (h : ∀ a ∈ spreadType variadic vars, g'.get? a = g.get? a) :
    g'.tupleParts vars variadic = g.tupleParts vars variadic := by
  rw [tupleParts, tupleParts, varsParts_of_spread h]

/-- No slot of `results` takes the remaining arguments. -/
theorem resultParts_eq (g g' : TypeGraph) (results : List Var) :
    g'.resultParts results = g.resultParts results := by
  have htuple : ∀ vars, g'.tupleParts vars false = g.tupleParts vars false :=
    fun _ => tupleParts_of_spread nofun
  unfold resultParts
  split
  · rfl
  · rw [htuple]
  · rw [htuple]

theorem signatureParts_of_peeks {id : TypeId}
    (h : ∀ a ∈ g.signaturePeeks id, g'.get? a = g.get? a) :
    g'.signatureParts id = g.signatureParts id := by
  unfold signaturePeeks at h
  unfold signatureParts
  rw [h id List.mem_cons_self]
  split
  · rename_i params results variadic hnode
    rw [hnode] at h
    rw [tupleParts_of_spread fun a ha => h a (List.mem_cons_of_mem _ ha), resultParts_eq]
  · rfl

/-- `node` has the same `parts` in `g` and `g'` if they agree on `g.peeks node`. -/
theorem parts_of_peeks {node : TypeNode} (h : ∀ a ∈ g.peeks node, g'.get? a = g.get? a) :
    g'.parts node = g.parts node := by
  cases node with
  | tuple vars => exact tupleParts_of_spread nofun
  | signature params results variadic =>
    rw [parts, parts, tupleParts_of_spread h, resultParts_eq]
  | interface methods embeddeds implicit =>
    have hmethods : methods.map (fun m => TypePart.text m.name :: g'.signatureParts m.signature) =
        methods.map fun m => TypePart.text m.name :: g.signatureParts m.signature := by
      refine List.map_congr_left fun m hm => ?_
      rw [signatureParts_of_peeks fun a ha => h a (List.mem_flatMap.2 ⟨m, hm, ha⟩)]
    by_cases hbare : ∃ e, methods = [] ∧ embeddeds = [e] ∧ implicit = true
    · obtain ⟨e, rfl, rfl, rfl⟩ := hbare
      rfl
    · rw [parts, parts, hmethods] <;> exact fun e hm he hi => hbare ⟨e, hm, he, hi⟩
  | chan dir elem =>
    cases dir with
    | both => rw [parts, parts, isRecvChan, isRecvChan, h elem List.mem_cons_self]
    | send => rfl
    | recv => rfl
  | _ => rfl

/-- What is written for `id` depends on what it `LooksUp`, and on nothing else in `g`. -/
theorem tokens?_of_looksUp {active : List TypeId} {id : TypeId}
    (h : ∀ a, g.LooksUp active id a → g'.get? a = g.get? a) (depth : Nat) :
    g'.tokens? depth active id = g.tokens? depth active id := by
  induction depth generalizing active id with
  | zero => rfl
  | succ depth ih =>
    rw [tokens?, tokens?, h id (.self active id)]
    cases hnode : g.get? id with
    | none => rfl
    | some node =>
      by_cases hactive : id ∈ active
      · simp only [if_pos hactive]
      · simp only [if_neg hactive]
        rw [parts_of_peeks fun a ha => h a (.peek hnode hactive ha)]
        exact allTokens?_congr fun t ht => ih fun a ha => h a (.inside hnode hactive ht ha)

/-! ## All of it belongs to the type -/

theorem mem_references_of_get? {id a : TypeId} {node : TypeNode} (hnode : g.get? id = some node)
    (h : a ∈ node.references) : a ∈ g.references id := by
  rwa [references, hnode]

theorem mem_references_of_spelled {node : TypeNode} {a : TypeId} (h : a ∈ node.spelled) :
    a ∈ node.references := by
  cases node with
  | named name package typeParams typeArgs underlying => exact List.mem_append_left _ h
  | typeParam | aliasOf => cases h
  | _ => exact h

theorem Spells.leads {id member : TypeId} (h : g.Spells id member) : g.Leads id member := by
  refine Relation.ReflTransGen.mono ?_ _ _ h
  rintro a b ⟨node, hnode, hb⟩
  exact mem_references_of_get? hnode (mem_references_of_spelled hb)

theorem mem_params_of_spreadType {variadic : Bool} {params results : List Var} {a : TypeId}
    (h : a ∈ spreadType variadic params) :
    a ∈ (TypeNode.signature params results variadic).references := by
  unfold spreadType at h
  split at h
  · obtain ⟨v, hv, rfl⟩ := List.mem_map.1 h
    exact List.mem_append_left _ (List.mem_map_of_mem
      (List.mem_of_getLast? (Option.mem_toList.1 hv)))
  · cases h

theorem leads_of_mem_signaturePeeks {id a : TypeId} (h : a ∈ g.signaturePeeks id) :
    g.Leads id a := by
  rcases List.mem_cons.1 h with rfl | h
  · exact .refl
  · split at h
    · rename_i params results variadic hnode
      exact .single (mem_references_of_get? hnode (mem_params_of_spreadType h))
    · cases h

theorem leads_of_mem_peeks {id a : TypeId} {node : TypeNode} (hnode : g.get? id = some node)
    (h : a ∈ g.peeks node) : g.Leads id a := by
  cases node with
  | signature params results variadic =>
    exact .single (mem_references_of_get? hnode (mem_params_of_spreadType h))
  | interface methods embeddeds implicit =>
    obtain ⟨m, hm, ha⟩ := List.mem_flatMap.1 h
    have hsignature : m.signature ∈ g.references id :=
      mem_references_of_get? hnode (List.mem_append_left _ (List.mem_map_of_mem hm))
    exact .head hsignature (leads_of_mem_signaturePeeks ha)
  | chan dir elem =>
    cases dir with
    | both => exact .single (mem_references_of_get? hnode h)
    | send | recv => cases h
  | _ => cases h

/-- `id` is made of all that it `LooksUp`. -/
theorem LooksUp.leads {active : List TypeId} {id a : TypeId} (h : g.LooksUp active id a) :
    g.Leads id a := by
  induction h with
  | self => exact .refl
  | peek hnode _ ha => exact leads_of_mem_peeks hnode ha
  | inside hnode _ ht _ ih =>
    obtain ⟨b, hb, hspells⟩ := spells_of_mem_innerTypes (mem_innerTypes_of_mem_parts ht)
    have hstep := mem_references_of_get? hnode (mem_references_of_spelled hb)
    exact .head hstep (hspells.leads.trans ih)

end Understudy.TypeGraph
