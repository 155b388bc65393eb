import Understudy.Graph
import Understudy.Text.Quoted

/-!
# What a type is written with

Every node is written as a sequence of parts: text, the prefix of a package, and other types. The
parts of a node depend on the graph only, so they fix what is written before anything is known of
package prefixes.

* `TypeGraph.parts`: the parts of a node.
* `TypeGraph.signatureParts`: the parts of a signature without `func`, as in the body of an
  interface.
-/

namespace Understudy

/-- A part of a written type: a `text`, the prefix of a `package`, or a `type` inside it. -/
inductive TypePart
  | text (s : String)
  | package (p : PackageRef)
  | type (id : TypeId)
deriving DecidableEq, Repr, Inhabited

namespace TypePart

/-- The `items` one after the other with `sep` between them. -/
def joined (sep : String) (items : List (List TypePart)) : List TypePart :=
  [text sep].intercalate items

/-- The `name` of a type behind the prefix of its package. -/
def typeName (package? : Option PackageRef) (name : String) : List TypePart :=
  match package? with
  | some p => [package p, text name]
  | none => [text name]

/-- Type parameters with their constraints. Neighbours with the same `constraint` share its text,
which follows the last of them. -/
def constrained : List TypeParamSpec → List TypePart
  | [] => []
  | [p] => [text p.name, text " ", type p.constraint]
  | p :: q :: rest =>
    text p.name :: (if p.constraint = q.constraint then [] else [text " ", type p.constraint]) ++
      text ", " :: constrained (q :: rest)

/-- The parts behind the name of a named type: its type arguments `args`, or else the type
parameters `params` that it declares. -/
def typeList (params : List TypeParamSpec) (args : List TypeId) : List TypePart :=
  match args, params with
  | [], [] => []
  | [], params => text "[" :: constrained params ++ [text "]"]
  | args, _ => text "[" :: joined ", " (args.map fun id => [type id]) ++ [text "]"]

/-- The parts of the struct field `f`. -/
def field (f : Field) : List TypePart :=
  (if f.embedded then [] else [text f.name, text " "]) ++ [type f.type] ++
    match f.tag with
    | some tag => [text (" " ++ Text.quoted tag)]
    | none => []

/-- The parts of the term `t` of a union. -/
def term (t : Term) : List TypePart :=
  (if t.tilde then [text "~"] else []) ++ [type t.type]

end TypePart

namespace TypeGraph

open TypePart

/-- The slot `v` of a tuple. If it takes the remaining arguments, where `spread` is set, a slice is
written by its element. -/
def varParts (g : TypeGraph) (spread : Bool) (v : Var) : List TypePart :=
  (if v.name = "" then [] else [text v.name, text " "]) ++
    match spread, g.get? v.type with
    | true, some (.slice elem) => [text "...", type elem]
    | _, _ => [type v.type]

/-- The slots of a tuple, of which only the last can take the remaining arguments, if `variadic` is
set. -/
def varsParts (g : TypeGraph) (variadic : Bool) : List Var → List (List TypePart)
  | [] => []
  | [v] => [g.varParts variadic v]
  | v :: vs => g.varParts false v :: varsParts g variadic vs

/-- The slots `vars` in parentheses. -/
def tupleParts (g : TypeGraph) (vars : List Var) (variadic : Bool) : List TypePart :=
  text "(" :: joined ", " (g.varsParts variadic vars) ++ [text ")"]

/-- The `results` of a signature, with the blank before them. One result without a name stands
without parentheses. -/
def resultParts (g : TypeGraph) (results : List Var) : List TypePart :=
  match results with
  | [] => []
  | [single] =>
    if single.name = "" then [text " ", type single.type]
    else text " " :: g.tupleParts [single] false
  | results => text " " :: g.tupleParts results false

/-- Parameters and results of the signature `id`. -/
def signatureParts (g : TypeGraph) (id : TypeId) : List TypePart :=
  match g.get? id with
  | some (.signature params results variadic) =>
    g.tupleParts params variadic ++ g.resultParts results
  | _ => [text "(<not a signature>)"]

/-- Whether `id` is a channel to receive from, which needs parentheses inside a channel. -/
def isRecvChan (g : TypeGraph) (id : TypeId) : Bool :=
  match g.get? id with
  | some (.chan .recv _) => true
  | _ => false

/-- The parts that a node is written with. An `implicit` interface that stands for a bare constraint
is written as that constraint. -/
def parts (g : TypeGraph) : TypeNode → List TypePart
  | .basic b => [text b.name]
  | .array len elem => [text ("[" ++ toString len.toNat ++ "]"), type elem]
  | .slice elem => [text "[]", type elem]
  | .struct fields => text "struct\x7b" :: joined "; " (fields.map field) ++ [text "\x7d"]
  | .pointer elem => [text "*", type elem]
  | .tuple vars => g.tupleParts vars false
  | .signature params results variadic =>
    text "func" :: g.tupleParts params variadic ++ g.resultParts results
  | .interface [] [embedded] true => [type embedded]
  | .interface methods embeddeds _ =>
    text "interface\x7b" ::
      joined "; " (methods.map (fun m => text m.name :: g.signatureParts m.signature) ++
        embeddeds.map fun id => [type id]) ++ [text "\x7d"]
  | .union terms => joined " | " (terms.map term)
  | .map key elem => [text "map[", type key, text "]", type elem]
  | .chan .both elem =>
    if g.isRecvChan elem then [text "chan (", type elem, text ")"] else [text "chan ", type elem]
  | .chan .send elem => [text "chan<- ", type elem]
  | .chan .recv elem => [text "<-chan ", type elem]
  | .named name pkg typeParams typeArgs _ => typeName pkg name ++ typeList typeParams typeArgs
  | .typeParam name _ => [text name]
  | .aliasOf name pkg _ => typeName pkg name
  | .other => [text "<unknown type>"]

end TypeGraph

end Understudy
