import Mathlib.Logic.Relation
import Understudy.Graph.Embedding
import Understudy.Graph.Validity

/-!
# Types that a type is made of

The walk behind `TypeGraph.valid` visits what it was started with, and with every type what that
type refers to, as far as it is in the graph. So it meets every type that is led to, and a type is
valid exactly if all that it leads to is in the graph and was resolved.

* `TypeGraph.Leads`: reference in any number of steps.
* `TypeGraph.mem_walk_of_reference`: what a visited type refers to is visited.
* `TypeGraph.valid_iff_leads`, `TypeGraph.valid_of_closed`: validity without the walk.
* `TypeNode.MadeOf`: the places that a type can have in another, kind by kind.
* `TypeGraph.valid_iff_reaches`: validity over these places.
-/

namespace Understudy

namespace TypeGraph

variable {g : TypeGraph}

/-- `id` refers to `member` in any number of steps, also in none. -/
def Leads (g : TypeGraph) (id member : TypeId) : Prop :=
  Relation.ReflTransGen (fun a b => b ∈ g.references a) id member

theorem contains_iff {id : TypeId} : g.contains id = true ↔ ∃ node, g.get? id = some node := by
  simp only [get?, Array.getElem?_eq_some_iff]
  constructor
  · exact fun h => ⟨_, of_decide_eq_true h, rfl⟩
  · rintro ⟨node, h, -⟩
    exact decide_eq_true h

theorem mem_ids_iff {id : TypeId} : id ∈ g.ids ↔ g.contains id = true := by
  constructor
  · intro h
    obtain ⟨n, hn, rfl⟩ := List.mem_map.1 h
    have hlt := List.mem_range.1 hn
    have hle : (UInt32.ofNat n).toNat ≤ n := by
      rw [UInt32.toNat_ofNat']
      exact Nat.mod_le _ _
    simp only [contains, decide_eq_true_eq]
    omega
  · intro h
    obtain ⟨node, hnode⟩ := contains_iff.1 h
    exact mem_ids_of_get? hnode

/-! ## One walk -/

theorem leads_of_mem_walk {domain pending : List TypeId} {member : TypeId}
    (h : member ∈ g.walk domain pending) : ∃ id ∈ pending, g.Leads id member := by
  fun_induction walk g domain pending with
  | case1 => cases h
  | case2 domain id rest hid ih =>
    rcases List.mem_cons.1 h with rfl | h
    · exact ⟨member, List.mem_cons_self, .refl⟩
    · obtain ⟨a, ha, hleads⟩ := ih h
      rcases List.mem_append.1 ha with ha | ha
      · exact ⟨id, List.mem_cons_self, .head ha hleads⟩
      · exact ⟨a, List.mem_cons_of_mem _ ha, hleads⟩
  | case3 domain id rest hid ih =>
    obtain ⟨a, ha, hleads⟩ := ih h
    exact ⟨a, List.mem_cons_of_mem _ ha, hleads⟩

theorem mem_walk_of_pending {domain pending : List TypeId} {id : TypeId} (h : id ∈ pending)
    (hdomain : id ∈ domain) : id ∈ g.walk domain pending := by
  fun_induction walk g domain pending with
  | case1 => cases h
  | case2 domain first rest hfirst ih =>
    by_cases heq : id = first
    · exact heq ▸ List.mem_cons_self
    · have hrest : id ∈ rest := (List.mem_cons.1 h).resolve_left heq
      exact List.mem_cons_of_mem _ (ih (List.mem_append_right _ hrest)
        ((List.mem_erase_of_ne heq).2 hdomain))
  | case3 domain first rest hfirst ih =>
    rcases List.mem_cons.1 h with rfl | h
    · exact absurd hdomain hfirst
    · exact ih h hdomain

theorem mem_walk_of_reference {domain pending : List TypeId} {owner id : TypeId}
    (howner : owner ∈ g.walk domain pending) (h : id ∈ g.references owner)
    (hdomain : id ∈ domain) : id ∈ g.walk domain pending := by
  fun_induction walk g domain pending with
  | case1 => cases howner
  | case2 domain first rest hfirst ih =>
    by_cases heq : id = first
    · exact heq ▸ List.mem_cons_self
    · have hleft : id ∈ domain.erase first := (List.mem_erase_of_ne heq).2 hdomain
      rcases List.mem_cons.1 howner with rfl | howner
      · -- what the first type refers to is pending from here on
        exact List.mem_cons_of_mem _ (mem_walk_of_pending (List.mem_append_left _ h) hleft)
      · exact List.mem_cons_of_mem _ (ih howner hleft)
  | case3 domain first rest hfirst ih => exact ih howner hdomain

/-! ## From one type -/

theorem isResolved_iff {id : TypeId} :
    g.isResolved id = true ↔
      ∃ node, g.get? id = some node ∧ node ≠ .basic .invalid ∧
        ∀ a ∈ node.references, g.contains a = true := by
  unfold isResolved
  cases g.get? id with
  | none => simp
  | some node => simp

/-- `id` is valid exactly if all that it `Leads` to is in `g` and was resolved. -/
theorem valid_iff_leads {id : TypeId} :
    g.valid id = true ↔
      ∀ member, g.Leads id member →
        ∃ node, g.get? member = some node ∧ node ≠ .basic .invalid := by
  rw [valid, Bool.and_eq_true, List.all_eq_true]
  constructor
  · rintro ⟨hid, hresolved⟩ member hleads
    have hmember : member ∈ g.reachable id := by
      induction hleads with
      | refl => exact mem_walk_of_pending List.mem_cons_self (mem_ids_iff.2 hid)
      | @tail a b _ hb ih =>
        obtain ⟨node, hnode, -, hcontains⟩ := isResolved_iff.1 (hresolved a ih)
        refine mem_walk_of_reference ih hb (mem_ids_iff.2 (hcontains b ?_))
        rwa [references, hnode] at hb
    obtain ⟨node, hnode, hne, -⟩ := isResolved_iff.1 (hresolved member hmember)
    exact ⟨node, hnode, hne⟩
  · intro hall
    constructor
    · obtain ⟨node, hnode, -⟩ := hall id .refl
      exact contains_iff.2 ⟨node, hnode⟩
    · intro member hmember
      obtain ⟨a, ha, hleads⟩ := leads_of_mem_walk hmember
      obtain rfl := List.mem_singleton.1 ha
      obtain ⟨node, hnode, hne⟩ := hall member hleads
      refine isResolved_iff.2 ⟨node, hnode, hne, fun b hb => contains_iff.2 ?_⟩
      have hb : b ∈ g.references member := by rwa [references, hnode]
      obtain ⟨node', hnode', -⟩ := hall b (hleads.tail hb)
      exact ⟨node', hnode'⟩

/-- Resolved types `ids` that refer to none but each other are valid. -/
theorem valid_of_closed (ids : List TypeId)
    (h : (ids.all fun a => g.isResolved a && (g.references a).all (· ∈ ids)) = true) {id : TypeId}
    (hid : id ∈ ids) : g.valid id = true := by
  simp only [List.all_eq_true, Bool.and_eq_true, decide_eq_true_eq] at h
  have hleads : ∀ member, g.Leads id member → member ∈ ids := by
    intro member hmember
    induction hmember with
    | refl => exact hid
    | tail _ hb ih => exact (h _ ih).2 _ hb
  refine valid_iff_leads.2 fun member hmember => ?_
  obtain ⟨node, hnode, hne, -⟩ := isResolved_iff.1 (h member (hleads member hmember)).1
  exact ⟨node, hnode, hne⟩

end TypeGraph

/-! ## Kind by kind -/

/-- A node is `MadeOf` a type, by the place that the type has in it. A basic type and a type of a
kind that is not modelled are made of nothing. -/
inductive TypeNode.MadeOf : TypeNode → TypeId → Prop
  | arrayElem (len : UInt64) (elem : TypeId) : MadeOf (.array len elem) elem
  | sliceElem (elem : TypeId) : MadeOf (.slice elem) elem
  | structField {fields : List Field} {f : Field} (h : f ∈ fields) : MadeOf (.struct fields) f.type
  | pointerElem (elem : TypeId) : MadeOf (.pointer elem) elem
  | tupleVar {vars : List Var} {v : Var} (h : v ∈ vars) : MadeOf (.tuple vars) v.type
  | param {params : List Var} {v : Var} (h : v ∈ params) (results : List Var) (variadic : Bool) :
    MadeOf (.signature params results variadic) v.type
  | result {results : List Var} {v : Var} (h : v ∈ results) (params : List Var) (variadic : Bool) :
    MadeOf (.signature params results variadic) v.type
  | method {methods : List MethodSpec} {m : MethodSpec} (h : m ∈ methods) (embeddeds : List TypeId)
      (implicit : Bool) : MadeOf (.interface methods embeddeds implicit) m.signature
  | embedded {embeddeds : List TypeId} {a : TypeId} (h : a ∈ embeddeds) (methods : List MethodSpec)
      (implicit : Bool) : MadeOf (.interface methods embeddeds implicit) a
  | unionTerm {terms : List Term} {t : Term} (h : t ∈ terms) : MadeOf (.union terms) t.type
  | mapKey (key elem : TypeId) : MadeOf (.map key elem) key
  | mapElem (key elem : TypeId) : MadeOf (.map key elem) elem
  | chanElem (dir : ChanDir) (elem : TypeId) : MadeOf (.chan dir elem) elem
  | paramConstraint {params : List TypeParamSpec} {p : TypeParamSpec} (h : p ∈ params)
      (name : String) (package : Option PackageRef) (args : List TypeId) (underlying : TypeId) :
    MadeOf (.named name package params args underlying) p.constraint
  | typeArg {args : List TypeId} {a : TypeId} (h : a ∈ args) (name : String)
      (package : Option PackageRef) (params : List TypeParamSpec) (underlying : TypeId) :
    MadeOf (.named name package params args underlying) a
  | underlying (name : String) (package : Option PackageRef) (params : List TypeParamSpec)
      (args : List TypeId) (underlying : TypeId) :
    MadeOf (.named name package params args underlying) underlying
  | constraint (name : String) (constraint : TypeId) :
    MadeOf (.typeParam name constraint) constraint
  | target (name : String) (package : Option PackageRef) (target : TypeId) :
    MadeOf (.aliasOf name package target) target

namespace TypeNode

theorem MadeOf.mem_references {node : TypeNode} {a : TypeId} (h : node.MadeOf a) :
    a ∈ node.references := by
  cases h with
  | structField hmem | tupleVar hmem | unionTerm hmem => exact List.mem_map.2 ⟨_, hmem, rfl⟩
  | param hv => exact List.mem_append_left _ (List.mem_map.2 ⟨_, hv, rfl⟩)
  | result hv => exact List.mem_append_right _ (List.mem_map.2 ⟨_, hv, rfl⟩)
  | method hm => exact List.mem_append_left _ (List.mem_map.2 ⟨_, hm, rfl⟩)
  | embedded ha => exact List.mem_append_right _ ha
  | paramConstraint hp =>
    exact List.mem_append_left _ (List.mem_append_left _ (List.mem_map.2 ⟨_, hp, rfl⟩))
  | typeArg ha => exact List.mem_append_left _ (List.mem_append_right _ ha)
  | _ => simp [references]

theorem madeOf_of_mem_references {node : TypeNode} {a : TypeId} (h : a ∈ node.references) :
    node.MadeOf a := by
  cases node with
  | basic | other => cases h
  | array | slice | pointer | chan | typeParam | aliasOf =>
    obtain rfl := List.mem_singleton.1 h
    constructor
  | struct | tuple | union =>
    obtain ⟨x, hx, rfl⟩ := List.mem_map.1 h
    constructor
    exact hx
  | signature params results variadic =>
    rcases List.mem_append.1 h with h | h
    · obtain ⟨v, hv, rfl⟩ := List.mem_map.1 h
      exact .param hv results variadic
    · obtain ⟨v, hv, rfl⟩ := List.mem_map.1 h
      exact .result hv params variadic
  | interface methods embeddeds implicit =>
    rcases List.mem_append.1 h with h | h
    · obtain ⟨m, hm, rfl⟩ := List.mem_map.1 h
      exact .method hm embeddeds implicit
    · exact .embedded h methods implicit
  | map key elem =>
    rcases List.mem_cons.1 h with rfl | h
    · exact .mapKey a elem
    · obtain rfl := List.mem_singleton.1 h
      exact .mapElem key a
  | named name package params args underlying =>
    rcases List.mem_append.1 h with h | h
    · rcases List.mem_append.1 h with h | h
      · obtain ⟨p, hp, rfl⟩ := List.mem_map.1 h
        exact .paramConstraint hp name package args underlying
      · exact .typeArg h name package params underlying
    · obtain rfl := List.mem_singleton.1 h
      exact .underlying name package params args a

theorem mem_references_iff {node : TypeNode} {a : TypeId} : a ∈ node.references ↔ node.MadeOf a :=
  ⟨madeOf_of_mem_references, MadeOf.mem_references⟩

end TypeNode

namespace TypeGraph

variable {g : TypeGraph}

/-- The node with the number `a` is in the graph and made of `b`. -/
def MadeOf (g : TypeGraph) (a b : TypeId) : Prop :=
  ∃ node, g.get? a = some node ∧ node.MadeOf b

theorem mem_references_iff {a b : TypeId} : b ∈ g.references a ↔ g.MadeOf a b := by
  unfold references MadeOf
  cases g.get? a with
  | none => simp
  | some node => simp [TypeNode.mem_references_iff]

/-- `id` is valid exactly if every type that it is `MadeOf` at some depth, itself included, is in
`g` and is not the one that stands for an unresolved reference. -/
theorem valid_iff_reaches (g : TypeGraph) (id : TypeId) :
    g.valid id = true ↔
      ∀ member, Relation.ReflTransGen g.MadeOf id member →
        ∃ node, g.get? member = some node ∧ node ≠ .basic .invalid := by
  have hstep : (fun a b => b ∈ g.references a) = g.MadeOf := by
    funext a b
    exact propext mem_references_iff
  rw [valid_iff_leads, ← hstep]
  rfl

end TypeGraph

end Understudy
