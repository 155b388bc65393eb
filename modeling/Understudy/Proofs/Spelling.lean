import Mathlib.Logic.Relation
import Understudy.Proofs.Printed

/-!
# What a written type depends on

A type is written from the types that stand in it. What a name stands for is not among them, nor is
the constraint of a type parameter. So two graphs that agree on what is written out for a type give
it the same text, whatever else they hold.

* `TypeNode.spelled`: the types that are looked at when a node is written.
* `TypeGraph.Spells`: the types that are looked at when a type is written.
* `TypeGraph.AgreeInside`: two graphs hold the same node for each of them.
* `TypeGraph.AgreeInside.textWith_eq`: then the texts are the same.
-/

namespace Understudy

/-- The types that a node is written from. A `named` type is written without what it stands for. -/
def TypeNode.spelled : TypeNode → List TypeId
  | .named _ _ typeParams typeArgs _ => typeParams.map (·.constraint) ++ typeArgs
  | .typeParam _ _ => []
  | .aliasOf _ _ _ => []
  | node => node.references

namespace TypeGraph

variable {g g' : TypeGraph}

/-- `member` is looked at when `id` is written. -/
def Spells (g : TypeGraph) (id member : TypeId) : Prop :=
  Relation.ReflTransGen (fun a b => ∃ node, g.get? a = some node ∧ b ∈ node.spelled) id member

/-- Nothing that is looked at when `id` is written changes from `g` to `g'`. -/
def AgreeInside (g g' : TypeGraph) (id : TypeId) : Prop :=
  ∀ member, g.Spells id member → g'.get? member = g.get? member

theorem AgreeInside.get?_eq {id : TypeId} (h : AgreeInside g g' id) : g'.get? id = g.get? id :=
  h id .refl

theorem AgreeInside.mono {id member : TypeId} (h : AgreeInside g g' id)
    (hspells : g.Spells id member) : AgreeInside g g' member :=
  fun a ha => h a (hspells.trans ha)

theorem AgreeInside.spelled {id a : TypeId} {node : TypeNode} (h : AgreeInside g g' id)
    (hnode : g.get? id = some node) (ha : a ∈ node.spelled) : AgreeInside g g' a :=
  h.mono (.single ⟨node, hnode, ha⟩)

/-! ## Types among the parts -/

theorem spells_slotType (g : TypeGraph) (spread : Bool) (v : Var) :
    g.Spells v.type (g.slotType spread v) := by
  unfold slotType
  split
  · rename_i elem hslice
    exact .single ⟨.slice elem, hslice, List.mem_cons_self⟩
  · exact .refl

theorem spells_of_mem_slotTypes {variadic : Bool} {vars : List Var} {t : TypeId}
    (h : t ∈ g.slotTypes variadic vars) : ∃ v ∈ vars, g.Spells v.type t := by
  induction vars with
  | nil => cases h
  | cons v vs ih =>
    cases vs with
    | nil =>
      obtain rfl := List.mem_singleton.1 h
      exact ⟨v, List.mem_cons_self, g.spells_slotType variadic v⟩
    | cons w ws =>
      rcases List.mem_cons.1 h with rfl | h
      · exact ⟨v, List.mem_cons_self, .refl⟩
      · obtain ⟨u, hu, hspells⟩ := ih h
        exact ⟨u, List.mem_cons_of_mem _ hu, hspells⟩

theorem spells_of_mem_signature {params results : List Var} {variadic : Bool} {t : TypeId}
    (h : t ∈ g.slotTypes variadic params ++ results.map (·.type)) :
    ∃ a ∈ (TypeNode.signature params results variadic).spelled, g.Spells a t := by
  rcases List.mem_append.1 h with h | h
  · obtain ⟨v, hv, hspells⟩ := spells_of_mem_slotTypes h
    exact ⟨v.type, List.mem_append_left _ (List.mem_map_of_mem hv), hspells⟩
  · exact ⟨t, List.mem_append_right _ h, .refl⟩

theorem spells_of_mem_signatureTypes {id t : TypeId} (h : t ∈ g.signatureTypes id) :
    g.Spells id t := by
  unfold signatureTypes at h
  split at h
  · rename_i params results variadic hnode
    obtain ⟨a, ha, hspells⟩ := spells_of_mem_signature h
    exact .head ⟨_, hnode, ha⟩ hspells
  · cases h

theorem spells_of_mem_innerTypes {node : TypeNode} {t : TypeId} (h : t ∈ g.innerTypes node) :
    ∃ a ∈ node.spelled, g.Spells a t := by
  cases node with
  | signature params results variadic => exact spells_of_mem_signature h
  | interface methods embeddeds implicit =>
    rcases List.mem_append.1 h with h | h
    · obtain ⟨m, hm, ht⟩ := List.mem_flatMap.1 h
      exact ⟨m.signature, List.mem_append_left _ (List.mem_map_of_mem hm),
        spells_of_mem_signatureTypes ht⟩
    · exact ⟨t, List.mem_append_right _ h, .refl⟩
  | named name package typeParams typeArgs underlying =>
    refine ⟨t, ?_, .refl⟩
    simp only [innerTypes] at h
    split at h
    · exact List.mem_append_left _ ((List.destutter_sublist _ _).subset h)
    · exact List.mem_append_right _ h
  | basic | typeParam | aliasOf | other => cases h
  | _ => exact ⟨t, h, .refl⟩

theorem mem_innerTypes_of_mem_parts {node : TypeNode} {t : TypeId}
    (h : TypePart.type t ∈ g.parts node) : t ∈ g.innerTypes node := by
  have hmarks : TypePart.type t ∈ marks (g.parts node) := List.mem_filter.2 ⟨h, rfl⟩
  rw [parts_marks] at hmarks
  simpa using hmarks

/-! ## The same parts -/

theorem varParts_congr {v : Var} (h : AgreeInside g g' v.type) (spread : Bool) :
    g'.varParts spread v = g.varParts spread v := by
  unfold varParts
  rw [h.get?_eq]

theorem varsParts_congr {vars : List Var} (h : ∀ v ∈ vars, AgreeInside g g' v.type)
    (variadic : Bool) : g'.varsParts variadic vars = g.varsParts variadic vars := by
  induction vars with
  | nil => rfl
  | cons v vs ih =>
    have hv := varParts_congr (h v List.mem_cons_self)
    cases vs with
    | nil => simp [varsParts, hv]
    | cons w ws =>
      have hrest := ih fun u hu => h u (List.mem_cons_of_mem _ hu)
      simp only [varsParts, hv] at hrest ⊢
      rw [hrest]

theorem tupleParts_congr {vars : List Var} (h : ∀ v ∈ vars, AgreeInside g g' v.type)
    (variadic : Bool) : g'.tupleParts vars variadic = g.tupleParts vars variadic := by
  rw [tupleParts, tupleParts, varsParts_congr h]

theorem resultParts_congr {results : List Var} (h : ∀ v ∈ results, AgreeInside g g' v.type) :
    g'.resultParts results = g.resultParts results := by
  unfold resultParts
  split
  · rfl
  · rw [tupleParts_congr h]
  · rw [tupleParts_congr h]

theorem signature_congr {params results : List Var} {variadic : Bool}
    (h : ∀ a ∈ (TypeNode.signature params results variadic).spelled, AgreeInside g g' a) :
    g'.tupleParts params variadic ++ g'.resultParts results =
      g.tupleParts params variadic ++ g.resultParts results := by
  rw [tupleParts_congr fun v hv => h _ (List.mem_append_left _ (List.mem_map_of_mem hv)),
    resultParts_congr fun v hv => h _ (List.mem_append_right _ (List.mem_map_of_mem hv))]

theorem signatureParts_congr {id : TypeId} (h : AgreeInside g g' id) :
    g'.signatureParts id = g.signatureParts id := by
  rw [signatureParts, signatureParts, h.get?_eq]
  cases hnode : g.get? id with
  | none => rfl
  | some node =>
    cases node with
    | signature params results variadic => exact signature_congr fun a ha => h.spelled hnode ha
    | _ => rfl

theorem parts_congr {node : TypeNode} (h : ∀ a ∈ node.spelled, AgreeInside g g' a) :
    g'.parts node = g.parts node := by
  cases node with
  | tuple vars => exact tupleParts_congr (fun v hv => h _ (List.mem_map_of_mem hv)) false
  | signature params results variadic => exact congrArg (.text "func" :: ·) (signature_congr h)
  | interface methods embeddeds implicit =>
    have hmethods : methods.map (fun m => TypePart.text m.name :: g'.signatureParts m.signature) =
        methods.map fun m => TypePart.text m.name :: g.signatureParts m.signature := by
      refine List.map_congr_left fun m hm => ?_
      rw [signatureParts_congr (h _ (List.mem_append_left _ (List.mem_map_of_mem hm)))]
    by_cases hbare : ∃ e, methods = [] ∧ embeddeds = [e] ∧ implicit = true
    · obtain ⟨e, rfl, rfl, rfl⟩ := hbare
      rfl
    · rw [parts, parts, hmethods] <;> exact fun e hm he hi => hbare ⟨e, hm, he, hi⟩
  | chan dir elem =>
    have helem := (h elem List.mem_cons_self).get?_eq
    cases dir with
    | both => rw [parts, parts, isRecvChan, isRecvChan, helem]
    | send => rfl
    | recv => rfl
  | _ => rfl

/-! ## The same text -/

theorem allTokens?_congr {type type' : TypeId → Option (List Token)} {parts : List TypePart}
    (h : ∀ t, .type t ∈ parts → type' t = type t) :
    TypePart.allTokens? type' parts = TypePart.allTokens? type parts := by
  induction parts with
  | nil => rfl
  | cons part rest ih =>
    rw [TypePart.allTokens?, TypePart.allTokens?, ih fun t ht => h t (List.mem_cons_of_mem _ ht)]
    cases part with
    | text s => rfl
    | package p => rfl
    | type t => rw [TypePart.tokens?, TypePart.tokens?, h t List.mem_cons_self]

namespace AgreeInside

theorem tokens?_eq {id : TypeId} (h : AgreeInside g g' id) (depth : Nat) (active : List TypeId) :
    g'.tokens? depth active id = g.tokens? depth active id := by
  induction depth generalizing active id with
  | zero => rfl
  | succ depth ih =>
    rw [tokens?, tokens?, h.get?_eq]
    cases hnode : g.get? id with
    | none => rfl
    | some node =>
      have hinner : ∀ t, .type t ∈ g.parts node → AgreeInside g g' t := by
        intro t ht
        obtain ⟨a, ha, hspells⟩ := spells_of_mem_innerTypes (mem_innerTypes_of_mem_parts ht)
        exact (h.spelled hnode ha).mono hspells
      simp only [parts_congr fun a ha => h.spelled hnode ha]
      rw [allTokens?_congr fun t ht => ih (hinner t ht) _]

theorem textWith_eq {id : TypeId} (h : AgreeInside g g' id) (hsize : g'.size = g.size)
    (answer : PackageRef → String) : g'.textWith answer id = g.textWith answer id := by
  rw [textWith, textWith, tokens, tokens, depth, depth, hsize, h.tokens?_eq]

theorem hasText_eq {id : TypeId} (h : AgreeInside g g' id) (hsize : g'.size = g.size) :
    g'.hasText id = g.hasText id := by
  rw [TypeGraph.hasText_eq, TypeGraph.hasText_eq, depth, depth, hsize, h.tokens?_eq]

end AgreeInside

end TypeGraph

end Understudy
