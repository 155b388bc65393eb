import Mathlib.Data.List.Basic
import Mathlib.Logic.Equiv.Basic
import Understudy.Extract.File
import Understudy.Proofs.Reachability
import Understudy.Proofs.Shape
import Understudy.Proofs.Tokens
import Understudy.Proofs.UsedImports

/-!
# How types are numbered

The numbers of types tell types apart and lead from one to the next, and nothing else is read from
them. So a package whose types are numbered in another way gives the same mock files.

* `TypeNode.renumber`, `TypeGraph.renumber`, `Package.renumber`: the same types under other numbers.
* `TypeGraph.Renumbers`: what the proofs need of two such graphs.
* `TypeGraph.Renumbers.tokens?_depth_eq`: types are written alike.
* `TypeGraph.Renumbers.explode_eq`: the walk over embedded interfaces takes the same way.
* `TypeGraph.Renumbers.valid_eq`: the same types are valid.
* `Extract.generateEach_renumber`: generation gives the same files and the same failures.
-/

namespace Understudy

/-! ## Other numbers -/

section Renumber

variable (f : TypeId → TypeId)

def Var.renumber (v : Var) : Var := { v with type := f v.type }

def Field.renumber (x : Field) : Field := { x with type := f x.type }

def MethodSpec.renumber (m : MethodSpec) : MethodSpec := { m with signature := f m.signature }

def Term.renumber (t : Term) : Term := { t with type := f t.type }

def TypeParamSpec.renumber (p : TypeParamSpec) : TypeParamSpec :=
  { p with constraint := f p.constraint }

def Object.renumber (x : Object) : Object := { x with type := f x.type }

/-- The node with `f id` in the place of every number `id` in it. -/
def TypeNode.renumber : TypeNode → TypeNode
  | .basic type => .basic type
  | .array len elem => .array len (f elem)
  | .slice elem => .slice (f elem)
  | .struct fields => .struct (fields.map (Field.renumber f))
  | .pointer elem => .pointer (f elem)
  | .tuple vars => .tuple (vars.map (Var.renumber f))
  | .signature params results variadic =>
    .signature (params.map (Var.renumber f)) (results.map (Var.renumber f)) variadic
  | .interface methods embeddeds implicit =>
    .interface (methods.map (MethodSpec.renumber f)) (embeddeds.map f) implicit
  | .union terms => .union (terms.map (Term.renumber f))
  | .map key elem => .map (f key) (f elem)
  | .chan dir elem => .chan dir (f elem)
  | .named name package typeParams typeArgs underlying =>
    .named name package (typeParams.map (TypeParamSpec.renumber f)) (typeArgs.map f) (f underlying)
  | .typeParam name constraint => .typeParam name (f constraint)
  | .aliasOf name package target => .aliasOf name package (f target)
  | .other => .other

/-- The part with `f id` in the place of a number `id` in it. -/
def TypePart.renumber : TypePart → TypePart
  | .text s => .text s
  | .package p => .package p
  | .type id => .type (f id)

end Renumber

namespace TypeGraph

/-- Other numbers for the types of `g`. A number that stands for no type is kept. -/
structure Renumbering (g : TypeGraph) where
  number : Equiv.Perm TypeId
  number_eq_self : ∀ id, g.contains id = false → number id = id

/-- The graph in which every type of `g` has its new number. A place that no number reaches is
kept. -/
def renumber (g : TypeGraph) (r : g.Renumbering) : TypeGraph where
  nodes := g.nodes.mapIdx fun i node =>
    let moved :=
      if i < UInt32.size then (g.get? (r.number.symm (UInt32.ofNat i))).getD node else node
    moved.renumber r.number

/-- The types of `g'` are those of `g` under new numbers. -/
structure Renumbers (f : TypeId → TypeId) (g g' : TypeGraph) : Prop where
  injective : Function.Injective f
  size_eq : g'.size = g.size
  get?_eq : ∀ id, g'.get? (f id) = (g.get? id).map (TypeNode.renumber f)

namespace Renumbering

variable {g : TypeGraph} (r : g.Renumbering)

/-- `r.number` gives a type of `g` a number of `g`. -/
theorem contains_number (id : TypeId) : g.contains (r.number id) = g.contains id := by
  cases hnew : g.contains (r.number id) with
  | false =>
    have hid : r.number id = id := r.number.injective (r.number_eq_self _ hnew)
    rw [← hnew, hid]
  | true =>
    cases hid : g.contains id with
    | true => rfl
    | false =>
      rw [r.number_eq_self id hid, hid] at hnew
      cases hnew

theorem renumbers : Renumbers r.number g (g.renumber r) where
  injective := r.number.injective
  size_eq := by simp [size, renumber]
  get?_eq id := by
    have hplace : (r.number id).toNat < UInt32.size := UInt32.toNat_lt_size _
    have hcontains := r.contains_number id
    have hget : (g.renumber r).get? (r.number id) =
        (g.get? (r.number id)).map fun node => ((g.get? id).getD node).renumber r.number := by
      simp only [get?, renumber, Array.getElem?_mapIdx, if_pos hplace, UInt32.ofNat_toNat,
        Equiv.symm_apply_apply]
    rw [hget]
    cases hold : g.get? id with
    | none =>
      have : g.get? (r.number id) = none := by
        cases hnew : g.get? (r.number id) with
        | none => rfl
        | some node =>
          obtain ⟨node', hnode'⟩ := contains_iff.1 (hcontains ▸ contains_iff.2 ⟨node, hnew⟩)
          rw [hold] at hnode'
          cases hnode'
      rw [this]
      rfl
    | some node =>
      obtain ⟨node', hnode'⟩ := contains_iff.1
        (hcontains.trans (contains_iff.2 ⟨node, hold⟩))
      rw [hnode']
      rfl

end Renumbering

namespace Renumbers

variable {f : TypeId → TypeId} {g g' : TypeGraph}

/-! ## Following references -/

theorem sameShape (h : Renumbers f g g') : SameShape f g g' where
  size_eq := h.size_eq
  aliased?_eq id := by
    rw [h.get?_eq, Option.map_map]
    congr 1
    funext node
    cases node <;> rfl
  embeddeds?_eq id := by
    rw [h.get?_eq]
    cases g.get? id with
    | none => rfl
    | some node => cases node <;> rfl

theorem references_renumber (f : TypeId → TypeId) (node : TypeNode) :
    (node.renumber f).references = node.references.map f := by
  cases node <;>
    simp [TypeNode.renumber, TypeNode.references, Function.comp_def, Var.renumber, Field.renumber,
      MethodSpec.renumber, Term.renumber, TypeParamSpec.renumber]

theorem references_eq (h : Renumbers f g g') (id : TypeId) :
    g'.references (f id) = (g.references id).map f := by
  rw [references, references, h.get?_eq]
  cases g.get? id with
  | none => rfl
  | some node => exact references_renumber f node

theorem leads_iff (h : Renumbers f g g') {id member : TypeId} :
    g'.Leads (f id) member ↔ ∃ member₀, g.Leads id member₀ ∧ member = f member₀ := by
  constructor
  · intro hleads
    induction hleads with
    | refl => exact ⟨id, .refl, rfl⟩
    | tail _ hb ih =>
      obtain ⟨a, ha, rfl⟩ := ih
      rw [h.references_eq, List.mem_map] at hb
      obtain ⟨b, hb, rfl⟩ := hb
      exact ⟨b, ha.tail hb, rfl⟩
  · rintro ⟨member₀, hleads, rfl⟩
    induction hleads with
    | refl => exact .refl
    | tail _ hb ih =>
      refine ih.tail ?_
      rw [h.references_eq]
      exact List.mem_map_of_mem hb

theorem renumber_eq_invalid_iff {node : TypeNode} :
    node.renumber f = .basic .invalid ↔ node = .basic .invalid := by
  cases node <;> simp [TypeNode.renumber]

theorem valid_eq (h : Renumbers f g g') (id : TypeId) : g'.valid (f id) = g.valid id := by
  rw [Bool.eq_iff_iff, valid_iff_leads, valid_iff_leads]
  constructor
  · intro hall member hleads
    obtain ⟨node', hnode', hne⟩ := hall (f member) (h.leads_iff.2 ⟨member, hleads, rfl⟩)
    rw [h.get?_eq, Option.map_eq_some_iff] at hnode'
    obtain ⟨node, hnode, rfl⟩ := hnode'
    exact ⟨node, hnode, mt renumber_eq_invalid_iff.2 hne⟩
  · intro hall member hleads
    obtain ⟨member₀, hleads₀, rfl⟩ := h.leads_iff.1 hleads
    obtain ⟨node, hnode, hne⟩ := hall member₀ hleads₀
    refine ⟨node.renumber f, ?_, mt renumber_eq_invalid_iff.1 hne⟩
    rw [h.get?_eq, hnode]
    rfl

/-! ## Writing types -/

theorem joined_renumber (f : TypeId → TypeId) (sep : String) (items : List (List TypePart)) :
    (TypePart.joined sep items).map (TypePart.renumber f) =
      TypePart.joined sep (items.map (List.map (TypePart.renumber f))) := by
  unfold TypePart.joined
  induction items with
  | nil => rfl
  | cons item items ih =>
    cases items with
    | nil => simp [List.intercalate]
    | cons item' items => simp_all [List.intercalate, TypePart.renumber]

theorem constrained_renumber (h : Renumbers f g g') (params : List TypeParamSpec) :
    TypePart.constrained (params.map (TypeParamSpec.renumber f)) =
      (TypePart.constrained params).map (TypePart.renumber f) := by
  fun_induction TypePart.constrained params with
  | case1 => rfl
  | case2 p => rfl
  | case3 p q rest ih =>
    simp only [List.map_cons] at ih ⊢
    rw [TypePart.constrained, ih]
    by_cases heq : p.constraint = q.constraint <;>
      simp [heq, h.injective.eq_iff, TypePart.renumber, TypeParamSpec.renumber]

theorem typeList_renumber (h : Renumbers f g g') (params : List TypeParamSpec)
    (args : List TypeId) :
    TypePart.typeList (params.map (TypeParamSpec.renumber f)) (args.map f) =
      (TypePart.typeList params args).map (TypePart.renumber f) := by
  cases args with
  | nil =>
    cases params with
    | nil => rfl
    | cons p params =>
      have hconstrained := h.constrained_renumber (p :: params)
      rw [List.map_cons] at hconstrained
      simp [TypePart.typeList, hconstrained, TypePart.renumber]
  | cons a args =>
    simp [TypePart.typeList, joined_renumber, TypePart.renumber, Function.comp_def]

theorem varParts_renumber (h : Renumbers f g g') (spread : Bool) (v : Var) :
    g'.varParts spread (v.renumber f) = (g.varParts spread v).map (TypePart.renumber f) := by
  have hname : (if v.name = "" then [] else [TypePart.text v.name, .text " "]).map
      (TypePart.renumber f) = if v.name = "" then [] else [.text v.name, .text " "] := by
    split <;> rfl
  unfold varParts
  rw [List.map_append, hname, Var.renumber, h.get?_eq]
  cases spread with
  | false => rfl
  | true =>
    cases g.get? v.type with
    | none => rfl
    | some node => cases node <;> rfl

theorem varsParts_renumber (h : Renumbers f g g') (variadic : Bool) (vars : List Var) :
    g'.varsParts variadic (vars.map (Var.renumber f)) =
      (g.varsParts variadic vars).map (List.map (TypePart.renumber f)) := by
  induction vars with
  | nil => rfl
  | cons v vs ih =>
    cases vs with
    | nil => simp [varsParts, h.varParts_renumber]
    | cons w ws => simp_all [varsParts, h.varParts_renumber]

theorem tupleParts_renumber (h : Renumbers f g g') (vars : List Var) (variadic : Bool) :
    g'.tupleParts (vars.map (Var.renumber f)) variadic =
      (g.tupleParts vars variadic).map (TypePart.renumber f) := by
  simp [tupleParts, h.varsParts_renumber, joined_renumber, TypePart.renumber]

theorem resultParts_renumber (h : Renumbers f g g') (results : List Var) :
    g'.resultParts (results.map (Var.renumber f)) =
      (g.resultParts results).map (TypePart.renumber f) := by
  match results with
  | [] => rfl
  | [single] =>
    have htuple := h.tupleParts_renumber [single] false
    rw [List.map_singleton] at htuple
    by_cases hname : single.name = "" <;>
      simp [resultParts, Var.renumber, hname, TypePart.renumber, ← htuple]
  | v :: w :: rest =>
    have htuple := h.tupleParts_renumber (v :: w :: rest) false
    simp only [List.map_cons] at htuple
    simp [resultParts, htuple, TypePart.renumber]

theorem signatureParts_renumber (h : Renumbers f g g') (id : TypeId) :
    g'.signatureParts (f id) = (g.signatureParts id).map (TypePart.renumber f) := by
  rw [signatureParts, signatureParts, h.get?_eq]
  cases g.get? id with
  | none => rfl
  | some node =>
    cases node with
    | signature params results variadic =>
      simp [TypeNode.renumber, h.tupleParts_renumber, h.resultParts_renumber]
    | _ => rfl

theorem isRecvChan_eq (h : Renumbers f g g') (id : TypeId) :
    g'.isRecvChan (f id) = g.isRecvChan id := by
  rw [isRecvChan, isRecvChan, h.get?_eq]
  cases g.get? id with
  | none => rfl
  | some node =>
    cases node with
    | chan dir elem => cases dir <;> rfl
    | _ => rfl

theorem typeName_renumber (f : TypeId → TypeId) (package? : Option PackageRef) (name : String) :
    (TypePart.typeName package? name).map (TypePart.renumber f) =
      TypePart.typeName package? name := by
  cases package? <;> rfl

theorem field_renumber (f : TypeId → TypeId) (x : Field) :
    TypePart.field (x.renumber f) = (TypePart.field x).map (TypePart.renumber f) := by
  cases hb : x.embedded <;> cases ht : x.tag <;>
    simp [TypePart.field, Field.renumber, hb, ht, TypePart.renumber]

theorem term_renumber (f : TypeId → TypeId) (t : Term) :
    TypePart.term (t.renumber f) = (TypePart.term t).map (TypePart.renumber f) := by
  cases ht : t.tilde <;> simp [TypePart.term, Term.renumber, ht, TypePart.renumber]

/-- Whether an interface stands for a bare constraint does not depend on its numbers in `g`. -/
theorem interface_renumber (h : Renumbers f g g') (methods : List MethodSpec)
    (embeddeds : List TypeId) (implicit : Bool) :
    g'.parts (.interface (methods.map (MethodSpec.renumber f)) (embeddeds.map f) implicit) =
      (g.parts (.interface methods embeddeds implicit)).map (TypePart.renumber f) := by
  by_cases hbare : ∃ e, methods = [] ∧ embeddeds = [e] ∧ implicit = true
  · obtain ⟨e, rfl, rfl, rfl⟩ := hbare
    rfl
  · rw [parts, parts]
    · simp [joined_renumber, TypePart.renumber, MethodSpec.renumber, Function.comp_def,
        h.signatureParts_renumber]
    · exact fun e hm he hi => hbare ⟨e, hm, he, hi⟩
    · intro e hm he hi
      obtain ⟨e₀, rfl, -⟩ := List.map_eq_singleton_iff.1 he
      exact hbare ⟨e₀, List.map_eq_nil_iff.1 hm, rfl, hi⟩

/-- `node` is written with the same `parts` in `g'`, under new numbers. -/
theorem parts_renumber (h : Renumbers f g g') (node : TypeNode) :
    g'.parts (node.renumber f) = (g.parts node).map (TypePart.renumber f) := by
  cases node with
  | basic b => rfl
  | array len elem => rfl
  | slice elem => rfl
  | struct fields =>
    simp [TypeNode.renumber, parts, joined_renumber, TypePart.renumber, Function.comp_def,
      field_renumber]
  | pointer elem => rfl
  | tuple vars => exact h.tupleParts_renumber vars false
  | signature params results variadic =>
    simp [TypeNode.renumber, parts, TypePart.renumber, h.tupleParts_renumber,
      h.resultParts_renumber]
  | interface methods embeddeds implicit => exact h.interface_renumber methods embeddeds implicit
  | union terms =>
    simp [TypeNode.renumber, parts, joined_renumber, Function.comp_def, term_renumber]
  | map key elem => rfl
  | chan dir elem =>
    cases dir with
    | both =>
      rw [TypeNode.renumber, parts, parts, h.isRecvChan_eq]
      split <;> rfl
    | send => rfl
    | recv => rfl
  | named name package typeParams typeArgs underlying =>
    simp [TypeNode.renumber, parts, typeName_renumber, h.typeList_renumber]
  | typeParam name constraint => rfl
  | aliasOf name package target =>
    simp [TypeNode.renumber, parts, typeName_renumber]
  | other => rfl

theorem allTokens?_renumber {type type' : TypeId → Option (List Token)}
    (htype : ∀ id, type' (f id) = type id) (parts : List TypePart) :
    TypePart.allTokens? type' (parts.map (TypePart.renumber f)) =
      TypePart.allTokens? type parts := by
  induction parts with
  | nil => rfl
  | cons part rest ih =>
    rw [List.map_cons, TypePart.allTokens?, TypePart.allTokens?, ih]
    cases part with
    | text s => rfl
    | package p => rfl
    | type id =>
      show (type' (f id)).bind _ = (type id).bind _
      rw [htype]

theorem enter_renumber (f : TypeId → TypeId) (node : TypeNode) (id : TypeId)
    (active : List TypeId) :
    (node.renumber f).enter (f id) (active.map f) = (node.enter id active).map f := by
  cases node <;> rfl

theorem tokens?_eq (h : Renumbers f g g') (depth : Nat) (active : List TypeId) (id : TypeId) :
    g'.tokens? depth (active.map f) (f id) = g.tokens? depth active id := by
  induction depth generalizing active id with
  | zero => rfl
  | succ depth ih =>
    rw [tokens?, tokens?, h.get?_eq]
    cases g.get? id with
    | none => rfl
    | some node =>
      simp only [Option.map_some, List.mem_map_of_injective h.injective, enter_renumber,
        h.parts_renumber]
      by_cases hmem : id ∈ active
      · rw [if_pos hmem, if_pos hmem]
      · rw [if_neg hmem, if_neg hmem]
        exact allTokens?_renumber (fun t => ih _ t) _

theorem tokens?_depth_eq (h : Renumbers f g g') (id : TypeId) :
    g'.tokens? g'.depth [] (f id) = g.tokens? g.depth [] id := by
  have htokens := h.tokens?_eq g.depth [] id
  rw [List.map_nil] at htokens
  rw [← htokens, depth, depth, h.size_eq]

theorem typeText?_eq {σ : Type} (h : Renumbers f g g') (q : Qualifier σ) (id : TypeId) :
    g'.typeText? q (f id) = g.typeText? q id := by
  funext s
  rw [TypeGraph.typeText?_eq, TypeGraph.typeText?_eq, h.tokens?_depth_eq]

theorem structuralText?_eq (h : Renumbers f g g') (id : TypeId) :
    g'.structuralText? (f id) = g.structuralText? id := by
  rw [structuralText?, structuralText?, h.typeText?_eq]

theorem structuralText_eq (h : Renumbers f g g') (id : TypeId) :
    g'.structuralText (f id) = g.structuralText id := by
  rw [structuralText, structuralText, h.structuralText?_eq]

theorem hasText_eq (h : Renumbers f g g') (id : TypeId) : g'.hasText (f id) = g.hasText id := by
  rw [hasText, hasText, h.structuralText?_eq]

/-! ## Embedded interfaces -/

theorem explodeFrom_eq (h : Renumbers f g g') (met : List String) (queue : List TypeId) :
    g'.explodeFrom met (queue.map f) = (g.explodeFrom met queue).map f := by
  fun_induction explodeFrom g met queue with
  | case1 => simp [explodeFrom]
  | case2 met id rest hmet ih =>
    rw [List.map_cons, explodeFrom, h.structuralText_eq, if_pos hmet, ih]
  | case3 met id rest hmet ih =>
    rw [List.map_cons, explodeFrom, h.structuralText_eq, if_neg hmet, List.map_cons, ← ih,
      List.map_append, h.sameShape.embedded_eq]

theorem explode_eq (h : Renumbers f g g') (id : TypeId) :
    g'.explode (f id) = (g.explode id).map f :=
  h.explodeFrom_eq [] [id]

theorem comparedTypes_eq (h : Renumbers f g g') (id : TypeId) :
    g'.comparedTypes (f id) = (g.comparedTypes id).map f := by
  rw [comparedTypes, comparedTypes, h.explode_eq, List.map_cons, List.flatMap_map,
    List.map_flatMap]
  simp only [h.sameShape.embedded_eq]

theorem explode?_eq (h : Renumbers f g g') (id : TypeId) :
    g'.explode? (f id) = (g.explode? id).map (List.map f) := by
  have hall : (g'.comparedTypes (f id)).all g'.hasText = (g.comparedTypes id).all g.hasText := by
    rw [h.comparedTypes_eq, List.all_map]
    exact congrArg (List.all _) (funext h.hasText_eq)
  rw [explode?, explode?, hall, h.explode_eq]
  split <;> rfl

end Renumbers

end TypeGraph

/-- The package in which every type of `p` has its new number. -/
def Package.renumber (p : Package) (r : p.types.Renumbering) : Package :=
  { p with
    types := p.types.renumber r
    objects := p.objects.map (Object.renumber r.number) }

namespace Extract

open TypeGraph (Renumbers)

section Graph

variable {σ : Type} {f : TypeId → TypeId} {g g' : TypeGraph}

/-! ## Extraction -/

theorem declaredMethods_renumber (h : Renumbers f g g') (id : TypeId) :
    declaredMethods g' (f id) = (declaredMethods g id).map (MethodSpec.renumber f) := by
  rw [declaredMethods, declaredMethods, h.get?_eq]
  cases g.get? id with
  | none => rfl
  | some node => cases node <;> rfl

theorem declaredTypeParams_renumber (h : Renumbers f g g') (id : TypeId) :
    declaredTypeParams g' (f id) = (declaredTypeParams g id).map (TypeParamSpec.renumber f) := by
  rw [declaredTypeParams, declaredTypeParams, h.get?_eq]
  cases g.get? id with
  | none => rfl
  | some node => cases node <;> rfl

theorem allMethods_renumber (h : Renumbers f g g') (id : TypeId) :
    allMethods g' (f id) = (allMethods g id).map fun m => (m.1, m.2.renumber f) := by
  rw [allMethods, allMethods, h.explode_eq, List.flatMap_map, List.map_flatMap]
  congr 1
  funext member
  simp [declaredMethods_renumber h, h.structuralText_eq]

theorem typeText_renumber (h : Renumbers f g g') (q : Qualifier σ) (id : TypeId) :
    typeText g' q (f id) = typeText g q id := by
  rw [typeText, typeText, h.typeText?_eq]

theorem method_renumber (h : Renumbers f g g') (q : Qualifier σ) (origin : String)
    (spec : MethodSpec) : method g' q origin (spec.renumber f) = method g q origin spec := by
  simp only [method, MethodSpec.renumber, h.get?_eq]
  cases g.get? spec.signature with
  | none => rfl
  | some node =>
    cases node with
    | signature params results variadic =>
      simp only [Option.map_some, TypeNode.renumber, List.mapM_map, Function.comp_def,
        Var.renumber, typeText_renumber h]
    | _ => rfl

end Graph

theorem interface_renumber {σ : Type} (p : Package) (r : p.types.Renumbering) (object : Object)
    (q : Qualifier σ) :
    interface (p.renumber r) (object.renumber r.number) q = interface p object q := by
  have h := r.renumbers
  simp only [interface, Package.renumber, Object.renumber, h.sameShape.interface?_eq, h.valid_eq,
    declaredTypeParams_renumber h, List.mapM_map, Function.comp_def, TypeParamSpec.renumber,
    typeText_renumber h]
  cases p.types.interface? object.type with
  | none => rfl
  | some id =>
    simp only [Option.map_some, allMethods_renumber h, List.mapM_map, Function.comp_def,
      method_renumber h, h.explode?_eq, Option.isNone_map]

theorem groupInterfaces_renumber (p : Package) (r : p.types.Renumbering) (scope : ImportScope)
    (objects : List ObjectId) :
    groupInterfaces (p.renumber r) scope objects = groupInterfaces p scope objects := by
  have hobject : ∀ id, (p.renumber r).object? id = (p.object? id).map (Object.renumber r.number) :=
    fun id => Array.getElem?_map
  unfold groupInterfaces
  congr 1
  funext id
  rw [hobject]
  cases p.object? id with
  | none => rfl
  | some object => exact interface_renumber p r object scope.qualify

/-! ## Generation -/

theorem assemble_renumber (o : Options) (packages : List ((p : Package) × p.types.Renumbering))
    (group : Directive.Group) :
    assemble o (packages.map fun x => x.1.renumber x.2) group =
      assemble o (packages.map (·.1)) group := by
  unfold assemble
  rw [List.getElem?_map, List.getElem?_map]
  cases packages[group.package]? with
  | none => rfl
  | some x =>
    show (groupImports x.1 group.files >>= _) = _
    simp only [Option.map_some, groupInterfaces_renumber]
    rfl

theorem annotated_renumber (o : Options)
    (packages : List ((p : Package) × p.types.Renumbering)) :
    Directive.annotated o (packages.map fun x => x.1.renumber x.2) =
      Directive.annotated o (packages.map (·.1)) := by
  simp only [Directive.annotated, List.zipIdx_map, List.flatMap_map]
  rfl

/-- `generateEach` gives the same files and the same failures however the types of each package of
`packages` are numbered. -/
theorem generateEach_renumber (o : Options)
    (packages : List ((p : Package) × p.types.Renumbering)) :
    generateEach o (packages.map fun x => x.1.renumber x.2) =
      generateEach o (packages.map (·.1)) := by
  simp only [generateEach, Directive.scan, annotated_renumber, assemble_renumber]

/-- The declared type `I` has the number 0, and the interface that it stands for the number 1. -/
def forward : Package where
  name := "p"
  path := "p"
  files := [⟨0, ⟨"p.go"⟩, [], [⟨["//go:mock"], [⟨"I", some 0⟩]⟩]⟩]
  objects := #[{ name := "I", kind := .typeName, type := 0, position := ⟨0, 1, 1⟩ }]
  scope := .empty
  types := ⟨#[.named "I" (some ⟨"p", "p"⟩) [] [] 1, .interface [] [] false]⟩
  diagnostics := []

/-- The two types of `forward` change places. -/
def exchange : forward.types.Renumbering where
  number := Equiv.swap 0 1
  number_eq_self id hid := by
    refine Equiv.swap_apply_of_ne_of_ne ?_ ?_
    · rintro rfl
      cases hid
    · rintro rfl
      cases hid

theorem assemble_forward :
    assemble {} [forward] ⟨0, [0], [0]⟩ =
      .ok { package := "p", imports := [], interfaces := [⟨"I", [], []⟩] } :=
  @assemble_of_run _ _ _ forward _ _ _ _ rfl rfl Import.aggregate_nil (groupInterfaces_cons rfl
    (interface_of_explode rfl rfl (TypeGraph.valid_of_closed [0, 1] rfl (by decide))
      (TypeGraph.explode_of_within 1 rfl) rfl rfl rfl List.mergeSort_nil) rfl)

theorem generateEach_forward :
    generateEach {} [forward] =
      .ok [(⟨"p_mock.go"⟩,
        .ok { package := "p", imports := [], interfaces := [⟨"I", [], []⟩] })] := by
  have hscan : Directive.scan {} [forward] = .ok [(⟨"p_mock.go"⟩, ⟨0, [0], [0]⟩)] := rfl
  rw [generateEach, hscan, ← assemble_forward]
  rfl

/-- In `forward.renumber exchange` the interface comes first, and the file is the same. -/
theorem generateEach_renumber_forward :
    (forward.renumber exchange).types =
        ⟨#[.interface [] [] false, .named "I" (some ⟨"p", "p"⟩) [] [] 0]⟩ ∧
      generateEach {} [forward.renumber exchange] =
        .ok [(⟨"p_mock.go"⟩,
          .ok { package := "p", imports := [], interfaces := [⟨"I", [], []⟩] })] :=
  ⟨rfl, (generateEach_renumber {} [⟨forward, exchange⟩]).trans generateEach_forward⟩

end Extract

end Understudy
