import Mathlib.Data.List.Destutter
import Understudy.Proofs.Tokens

/-!
# The packages that a type prints

A walk over the printed nodes of a type, stated on nodes and apart from how a node is cut into
parts: a named type or an alias prints its package and then the types in its brackets, and every
other node the types it is made of, in order.

* `TypeGraph.innerTypes`: the types printed inside a node.
* `TypeGraph.parts_marks`: the parts of a node hold its package and these types, in this order.
* `TypeGraph.printedPackages?`: the packages of the named types and aliases printed for a type.
* `TypeGraph.packages_tokens`: they are the packages among its tokens.
-/

namespace Understudy

/-- The package before the name of a node that is printed by name, `named` or `aliasOf`. -/
def TypeNode.package? : TypeNode → Option PackageRef
  | .named _ package _ _ _ => package
  | .aliasOf _ package _ => package
  | _ => none

namespace TypeGraph

open TypePart

/-- The type that the slot `v` is printed with. A slice that takes the remaining arguments, where
`spread` is set, is printed by its element. -/
def slotType (g : TypeGraph) (spread : Bool) (v : Var) : TypeId :=
  match spread, g.get? v.type with
  | true, some (.slice elem) => elem
  | _, _ => v.type

/-- The types that slots are printed with. Only the last can take the remaining arguments, if
`variadic` is set. -/
def slotTypes (g : TypeGraph) (variadic : Bool) : List Var → List TypeId
  | [] => []
  | [v] => [g.slotType variadic v]
  | v :: vs => v.type :: slotTypes g variadic vs

/-- The types printed inside the signature `id` of a method. -/
def signatureTypes (g : TypeGraph) (id : TypeId) : List TypeId :=
  match g.get? id with
  | some (.signature params results variadic) =>
    g.slotTypes variadic params ++ results.map (·.type)
  | _ => []

/-- The types of `g` printed inside a node, in order. What a name stands for is not printed. -/
def innerTypes (g : TypeGraph) : TypeNode → List TypeId
  | .basic _ => []
  | .array _ elem => [elem]
  | .slice elem => [elem]
  | .struct fields => fields.map (·.type)
  | .pointer elem => [elem]
  | .tuple vars => vars.map (·.type)
  | .signature params results variadic => g.slotTypes variadic params ++ results.map (·.type)
  | .interface methods embeddeds _ =>
    methods.flatMap (fun m => g.signatureTypes m.signature) ++ embeddeds
  | .union terms => terms.map (·.type)
  | .map key elem => [key, elem]
  | .chan _ elem => [elem]
  | .named _ _ typeParams typeArgs _ =>
    if typeArgs = [] then (typeParams.map (·.constraint)).destutter (· ≠ ·) else typeArgs
  | .typeParam _ _ => []
  | .aliasOf _ _ _ => []
  | .other => []

/-- The packages of the named types and aliases printed for a type inside the types of `active`. -/
def printedPackages? (g : TypeGraph) : Nat → List TypeId → TypeId → Option (List PackageRef)
  | 0, _, _ => none
  | depth + 1, active, id =>
    match g.get? id with
    | none => some []
    | some node =>
      if id ∈ active then some []
      else
        ((g.innerTypes node).mapM (printedPackages? g depth (node.enter id active))).map
          fun inner => node.package?.toList ++ inner.flatten

/-- The packages of the named types and aliases printed for `id`, in order. -/
def printedPackages (g : TypeGraph) (id : TypeId) : List PackageRef :=
  (g.printedPackages? g.depth [] id).getD []

/-! ## Parts without their texts -/

/-- Those of `parts` that are no text. -/
def marks (parts : List TypePart) : List TypePart :=
  parts.filter fun
    | .text _ => false
    | _ => true

@[simp] theorem marks_nil : marks [] = [] := rfl

@[simp] theorem marks_text (s : String) (rest : List TypePart) :
    marks (.text s :: rest) = marks rest := rfl

@[simp] theorem marks_package (p : PackageRef) (rest : List TypePart) :
    marks (.package p :: rest) = .package p :: marks rest := rfl

@[simp] theorem marks_type (id : TypeId) (rest : List TypePart) :
    marks (.type id :: rest) = .type id :: marks rest := rfl

@[simp] theorem marks_append (l l' : List TypePart) : marks (l ++ l') = marks l ++ marks l' :=
  List.filter_append l l'

/-- What stands between `items`, `sep`, is text. -/
@[simp] theorem marks_joined (sep : String) (items : List (List TypePart)) :
    marks (joined sep items) = items.flatMap marks := by
  unfold joined
  induction items with
  | nil => rfl
  | cons item items ih =>
    cases items with
    | nil => simp [List.intercalate]
    | cons item' items => simp_all [List.intercalate]

@[simp] theorem marks_constrained (params : List TypeParamSpec) :
    marks (constrained params) =
      ((params.map (·.constraint)).destutter (· ≠ ·)).map TypePart.type := by
  fun_induction constrained params with
  | case1 => rfl
  | case2 p => rfl
  | case3 p q rest ih =>
    simp only [List.map_cons, List.destutter_cons_cons] at ih ⊢
    by_cases heq : p.constraint = q.constraint
    · simp [heq, ih, List.destutter_cons']
    · simp [heq, ih, List.destutter_cons']

theorem marks_varParts (g : TypeGraph) (spread : Bool) (v : Var) :
    marks (g.varParts spread v) = [.type (g.slotType spread v)] := by
  have hname : marks (if v.name = "" then [] else [.text v.name, .text " "]) = [] := by
    split <;> rfl
  unfold varParts slotType
  rw [marks_append, hname]
  cases spread with
  | false => rfl
  | true =>
    cases g.get? v.type with
    | none => rfl
    | some node => cases node <;> rfl

@[simp] theorem slotType_false (g : TypeGraph) (v : Var) : g.slotType false v = v.type := rfl

theorem slotTypes_false (g : TypeGraph) (vars : List Var) :
    g.slotTypes false vars = vars.map (·.type) := by
  induction vars with
  | nil => rfl
  | cons v vs ih => cases vs <;> simp_all [slotTypes]

theorem marks_varsParts (g : TypeGraph) (variadic : Bool) (vars : List Var) :
    (g.varsParts variadic vars).flatMap marks = (g.slotTypes variadic vars).map TypePart.type := by
  induction vars with
  | nil => rfl
  | cons v vs ih =>
    cases vs with
    | nil => simp [varsParts, slotTypes, marks_varParts]
    | cons w ws => simp_all [varsParts, slotTypes, marks_varParts]

@[simp] theorem marks_tupleParts (g : TypeGraph) (vars : List Var) (variadic : Bool) :
    marks (g.tupleParts vars variadic) = (g.slotTypes variadic vars).map TypePart.type := by
  simp [tupleParts, marks_varsParts]

@[simp] theorem marks_resultParts (g : TypeGraph) (results : List Var) :
    marks (g.resultParts results) = (results.map (·.type)).map TypePart.type := by
  unfold resultParts
  split
  · rfl
  · split <;> simp [slotTypes_false]
  · simp [slotTypes_false]

@[simp] theorem marks_signatureParts (g : TypeGraph) (id : TypeId) :
    marks (g.signatureParts id) = (g.signatureTypes id).map TypePart.type := by
  unfold signatureParts signatureTypes
  cases g.get? id with
  | none => rfl
  | some node => cases node <;> simp

@[simp] theorem marks_typeName (package? : Option PackageRef) (name : String) :
    marks (typeName package? name) = package?.toList.map TypePart.package := by
  cases package? <;> rfl

@[simp] theorem marks_field (f : Field) : marks (field f) = [.type f.type] := by
  cases hb : f.embedded <;> cases ht : f.tag <;> simp [field, hb, ht]

@[simp] theorem marks_term (t : Term) : marks (term t) = [.type t.type] := by
  cases ht : t.tilde <;> simp [term, ht]

@[simp] theorem marks_typeList (params : List TypeParamSpec) (args : List TypeId) :
    marks (typeList params args) =
      (if args = [] then (params.map (·.constraint)).destutter (· ≠ ·) else args).map
        TypePart.type := by
  cases args with
  | nil => cases params <;> simp [typeList]
  | cons a args => simp [typeList, List.flatMap_map, ← List.map_eq_flatMap]

/-- An `implicit` interface that stands for a bare constraint needs no case of its own: what it
embeds is all that it prints. -/
theorem marks_interface (g : TypeGraph) (methods : List MethodSpec) (embeddeds : List TypeId)
    (implicit : Bool) :
    marks (g.parts (.interface methods embeddeds implicit)) =
      (methods.flatMap (fun m => g.signatureTypes m.signature) ++ embeddeds).map TypePart.type := by
  by_cases hbare : ∃ e, methods = [] ∧ embeddeds = [e] ∧ implicit = true
  · obtain ⟨e, rfl, rfl, rfl⟩ := hbare
    rfl
  · rw [parts]
    · simp [List.flatMap_map, List.map_flatMap, ← List.map_eq_flatMap]
    · exact fun e hm he hi => hbare ⟨e, hm, he, hi⟩

/-- The parts of `node` are its package and its `innerTypes`, with texts between them. -/
theorem parts_marks (g : TypeGraph) (node : TypeNode) :
    marks (g.parts node) =
      node.package?.toList.map TypePart.package ++ (g.innerTypes node).map TypePart.type := by
  cases node with
  | basic b => rfl
  | array len elem => rfl
  | slice elem => rfl
  | struct fields =>
    simp [parts, TypeNode.package?, innerTypes, List.flatMap_map, ← List.map_eq_flatMap]
  | pointer elem => rfl
  | tuple vars => simp [parts, TypeNode.package?, innerTypes, slotTypes_false]
  | signature params results variadic => simp [parts, TypeNode.package?, innerTypes]
  | interface methods embeddeds implicit => exact marks_interface g methods embeddeds implicit
  | union terms =>
    simp [parts, TypeNode.package?, innerTypes, List.flatMap_map, ← List.map_eq_flatMap]
  | map key elem => rfl
  | chan dir elem =>
    cases dir with
    | both => rw [parts]; split <;> rfl
    | send => rfl
    | recv => rfl
  | named name package typeParams typeArgs underlying =>
    simp [parts, TypeNode.package?, innerTypes]
  | typeParam name constraint => rfl
  | aliasOf name package target => simp [parts, TypeNode.package?, innerTypes]
  | other => rfl

/-! ## The walk and the tokens -/

/-- The packages of parts, given those of the types in them by `type`. -/
def partPackages? (type : TypeId → Option (List PackageRef)) :
    List TypePart → Option (List PackageRef)
  | [] => some []
  | .text _ :: rest => partPackages? type rest
  | .package p :: rest => (partPackages? type rest).map (p :: ·)
  | .type id :: rest => (type id).bind fun ps => (partPackages? type rest).map (ps ++ ·)

theorem partPackages?_marks (type : TypeId → Option (List PackageRef)) (parts : List TypePart) :
    partPackages? type (marks parts) = partPackages? type parts := by
  induction parts with
  | nil => rfl
  | cons part rest ih => cases part <;> simp [partPackages?, ih]

theorem partPackages?_types (type : TypeId → Option (List PackageRef)) (ids : List TypeId) :
    partPackages? type (ids.map TypePart.type) = (ids.mapM type).map List.flatten := by
  induction ids with
  | nil => rfl
  | cons id ids ih =>
    rw [List.map_cons, partPackages?, ih, List.mapM_cons]
    cases type id with
    | none => rfl
    | some ps => cases ids.mapM type <;> rfl

theorem partPackages?_node (type : TypeId → Option (List PackageRef))
    (package? : Option PackageRef) (ids : List TypeId) :
    partPackages? type (package?.toList.map TypePart.package ++ ids.map TypePart.type) =
      (ids.mapM type).map fun inner => package?.toList ++ inner.flatten := by
  cases package? with
  | none => simpa using partPackages?_types type ids
  | some p => simp [partPackages?, partPackages?_types, Function.comp_def]

theorem packages_allTokens? {tokens : TypeId → Option (List Token)}
    {type : TypeId → Option (List PackageRef)} (h : ∀ id, (tokens id).map Token.packages = type id)
    (parts : List TypePart) :
    (allTokens? tokens parts).map Token.packages = partPackages? type parts := by
  induction parts with
  | nil => rfl
  | cons part rest ih =>
    rw [allTokens?]
    cases part with
    | text t =>
      rw [TypePart.tokens?, partPackages?, ← ih, Option.bind_some, Option.map_map]
      rfl
    | package p =>
      rw [TypePart.tokens?, partPackages?, ← ih, Option.bind_some, Option.map_map, Option.map_map]
      rfl
    | type id =>
      rw [TypePart.tokens?, partPackages?, ← ih, ← h id]
      cases tokens id with
      | none => rfl
      | some ts =>
        rw [Option.bind_some, Option.map_some, Option.bind_some, Option.map_map, Option.map_map]
        congr 1
        funext us
        exact Token.packages_append ts us

/-- The packages among the tokens of `id` are those of the nodes it prints. -/
theorem packages_tokens? (g : TypeGraph) (depth : Nat) (active : List TypeId) (id : TypeId) :
    (g.tokens? depth active id).map Token.packages = g.printedPackages? depth active id := by
  induction depth generalizing active id with
  | zero => rfl
  | succ depth ih =>
    rw [tokens?, printedPackages?]
    cases g.get? id with
    | none => rfl
    | some node =>
      by_cases hmem : id ∈ active
      · simp only [if_pos hmem]; rfl
      · simp only [if_neg hmem]
        rw [packages_allTokens? (ih (node.enter id active)), ← partPackages?_marks, parts_marks,
          partPackages?_node]

theorem packages_tokens (g : TypeGraph) (id : TypeId) :
    Token.packages (g.tokens id) = g.printedPackages id := by
  rw [tokens, printedPackages, ← packages_tokens?]
  cases g.tokens? g.depth [] id <;> rfl

end TypeGraph

end Understudy
