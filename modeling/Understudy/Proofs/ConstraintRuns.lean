import Mathlib.Data.List.Chain
import Understudy.Proofs.Depths
import Understudy.Proofs.Parametricity

/-!
# Type parameters that share a constraint

A generic type that is written without arguments shows its type parameters. The list falls into runs
of neighbours with the same constraint, each as long as possible. A run is written as its names and
the constraint behind them, which is written once and so asks the qualifier once about each package
in it.

* `ParamRun`, `ParamRun.Maximal`: runs of type parameters, none of which can be extended.
* `TypePart.constrained_eq_joined`: the parts of a list of type parameters, run by run.
* `TypeGraph.writeParts?_joined`: items with a text between them are written one after the other.
* `TypeGraph.typeText?_of_name`: the text of a name, from the texts of the types in its brackets.
* `TypeGraph.text_constraintRuns`: a type with its type parameters, run by run.
-/

namespace Understudy

/-! ## Runs -/

/-- The `names` of type parameters next to each other that have the same `constraint`. -/
structure ParamRun where
  names : List String
  constraint : TypeId
  names_ne_nil : names ≠ []

namespace ParamRun

/-- The type parameters of the run `r`. -/
def params (r : ParamRun) : List TypeParamSpec :=
  r.names.map fun name => { name, constraint := r.constraint }

/-- The `runs` hold the type parameters `params`, each of them once and in order. They are as long
as possible: what comes after a run has another `constraint`. -/
structure Maximal (params : List TypeParamSpec) (runs : List ParamRun) : Prop where
  flatMap_params : runs.flatMap ParamRun.params = params
  apart : runs.IsChain fun r r' => r.constraint ≠ r'.constraint

/-- A type parameter `p` in front of `params` joins the first of `runs` or stands alone. -/
theorem Maximal.exists_cons {params : List TypeParamSpec} {runs : List ParamRun}
    (h : Maximal params runs) (p : TypeParamSpec) : ∃ runs', Maximal (p :: params) runs' := by
  obtain ⟨rfl, hapart⟩ := h
  let alone : ParamRun := ⟨[p.name], p.constraint, List.cons_ne_nil _ _⟩
  cases runs with
  | nil => exact ⟨[alone], rfl, .singleton _⟩
  | cons r runs =>
    by_cases hsame : p.constraint = r.constraint
    · refine ⟨⟨p.name :: r.names, r.constraint, List.cons_ne_nil _ _⟩ :: runs, ?_, ?_⟩
      · simp [ParamRun.params, ← hsame]
      · exact List.isChain_cons.2 (List.isChain_cons.1 hapart)
    · exact ⟨alone :: r :: runs, by simp [ParamRun.params, alone],
        List.isChain_cons_cons.2 ⟨hsame, hapart⟩⟩

theorem exists_maximal (params : List TypeParamSpec) : ∃ runs, Maximal params runs := by
  induction params with
  | nil => exact ⟨[], rfl, .nil⟩
  | cons p params ih =>
    obtain ⟨runs, hruns⟩ := ih
    exact hruns.exists_cons p

/-- The parts of the run `r`: its `names`, and its `constraint` behind them. -/
def parts (r : ParamRun) : List TypePart :=
  TypePart.joined ", " (r.names.map fun name => [.text name]) ++ [.text " ", .type r.constraint]

variable {σ : Type}

/-- Writes the `names` of the run `r`, and its `constraint` once. -/
def write? (type : TypeId → StateT σ Option String) (r : ParamRun) : StateT σ Option String := do
  let constraint ← type r.constraint
  return ", ".intercalate r.names ++ " " ++ constraint

/-- Writes `runs` in brackets. -/
def writeList? (type : TypeId → StateT σ Option String) (runs : List ParamRun) :
    StateT σ Option String := do
  let texts ← runs.mapM (write? type)
  return "[" ++ ", ".intercalate texts ++ "]"

end ParamRun

namespace TypePart

theorem joined_cons_cons (sep : String) (item item' : List TypePart)
    (items : List (List TypePart)) :
    joined sep (item :: item' :: items) = item ++ text sep :: joined sep (item' :: items) := by
  rw [joined, List.intercalate_cons_cons, List.append_assoc, List.singleton_append, joined]

/-- The parts of `r.params ++ rest`. Only behind the last name of `r` does it matter what `rest`
is. -/
theorem constrained_params_append (r : ParamRun) {rest : List TypeParamSpec}
    {tail : List TypePart}
    (hlast : ∀ name, constrained (⟨name, r.constraint⟩ :: rest) =
      [text name, text " ", type r.constraint] ++ tail) :
    constrained (r.params ++ rest) = r.parts ++ tail := by
  obtain ⟨names, constraint, hne⟩ := r
  simp only [ParamRun.params, ParamRun.parts]
  induction names with
  | nil => exact absurd rfl hne
  | cons name names ih =>
    cases names with
    | nil => exact hlast name
    | cons name' names =>
      have hnames := ih (List.cons_ne_nil name' names) hlast
      simp only [List.map_cons, List.cons_append] at hnames ⊢
      rw [constrained, if_pos rfl, hnames, joined_cons_cons]
      simp

/-- The parts `constrained params` are those of the `runs`, one after the other. -/
theorem constrained_eq_joined {params : List TypeParamSpec} {runs : List ParamRun}
    (h : ParamRun.Maximal params runs) :
    constrained params = joined ", " (runs.map ParamRun.parts) := by
  obtain ⟨rfl, hapart⟩ := h
  induction runs with
  | nil => rfl
  | cons r runs ih =>
    cases runs with
    | nil =>
      have hlast : ∀ name, constrained [⟨name, r.constraint⟩] =
          [text name, text " ", type r.constraint] ++ [] := fun _ => rfl
      rw [List.flatMap_cons, List.flatMap_nil, constrained_params_append r hlast, List.append_nil,
        List.map_singleton, joined, List.intercalate_singleton]
    | cons r' runs =>
      obtain ⟨hne, hapart⟩ := List.isChain_cons_cons.1 hapart
      have hlast : ∀ name, constrained (⟨name, r.constraint⟩ ::
            (r' :: runs).flatMap ParamRun.params) =
          [text name, text " ", type r.constraint] ++
            text ", " :: constrained ((r' :: runs).flatMap ParamRun.params) := by
        intro name
        obtain ⟨name', names, hnames⟩ := List.exists_cons_of_ne_nil r'.names_ne_nil
        rw [List.flatMap_cons, ParamRun.params, hnames, List.map_cons, List.cons_append,
          constrained, if_neg hne]
      rw [List.flatMap_cons, constrained_params_append r hlast, ih hapart, List.map_cons,
        List.map_cons, List.map_cons, joined_cons_cons]

end TypePart

namespace TypeGraph

open TypePart

variable {σ : Type} {g : TypeGraph}

/-! ## Writing item by item -/

section Items

variable (q : Qualifier σ) (type : TypeId → StateT σ Option String)

theorem writeParts?_append (parts parts' : List TypePart) :
    writeParts? q type (parts ++ parts') = do
      let s ← writeParts? q type parts
      let s' ← writeParts? q type parts'
      return s ++ s' := by
  simp [writeParts?, List.mapM_append]

theorem writeParts?_text (s : String) : writeParts? q type [text s] = pure s := by
  simp [writeParts?, writePart?]

theorem writeParts?_type (id : TypeId) : writeParts? q type [.type id] = type id := by
  simp [writeParts?, writePart?]

/-- `items` with `sep` between them are written one after the other. -/
theorem writeParts?_joined (sep : String) (items : List (List TypePart)) :
    writeParts? q type (joined sep items) = do
      let texts ← items.mapM (writeParts? q type)
      return sep.intercalate texts := by
  induction items with
  | nil => rfl
  | cons item items ih =>
    cases items with
    | nil => simp [joined]
    | cons item' items =>
      rw [joined_cons_cons, ← List.singleton_append, writeParts?_append, writeParts?_append,
        writeParts?_text, ih]
      simp [List.mapM_cons, String.append_assoc]

theorem writeParts?_names (names : List String) :
    writeParts? q type (joined ", " (names.map fun name => [text name])) =
      pure (", ".intercalate names) := by
  have hpure := List.mapM_pure (m := StateT σ Option) (l := names) (f := id)
  simp only [id_eq, List.map_id_fun] at hpure
  rw [writeParts?_joined, List.mapM_map]
  simp only [Function.comp_def, writeParts?_text, hpure, pure_bind]

theorem writeParts?_run (r : ParamRun) : writeParts? q type r.parts = r.write? type := by
  rw [ParamRun.parts, ← List.singleton_append, writeParts?_append, writeParts?_append,
    writeParts?_names, writeParts?_text, writeParts?_type]
  simp [ParamRun.write?, String.append_assoc]

/-- A type `name` with its type parameters is written as that name and the `runs` in brackets. -/
theorem writeParts?_runs (package? : Option PackageRef) (name : String)
    {params : List TypeParamSpec} (hparams : params ≠ []) {runs : List ParamRun}
    (h : ParamRun.Maximal params runs) :
    writeParts? q type (typeName package? name ++ typeList params []) = do
      let text ← writeParts? q type (typeName package? name)
      let list ← ParamRun.writeList? type runs
      return text ++ list := by
  have hlist : typeList params [] = [text "["] ++ (constrained params ++ [text "]"]) := by
    cases params with
    | nil => exact absurd rfl hparams
    | cons p rest => rfl
  have hruns : List.mapM (writeParts? q type ∘ ParamRun.parts) runs =
      runs.mapM (ParamRun.write? type) :=
    congrArg (List.mapM · runs) (funext (writeParts?_run q type))
  rw [writeParts?_append, hlist, constrained_eq_joined h, writeParts?_append, writeParts?_append,
    writeParts?_joined, List.mapM_map, hruns, writeParts?_text, writeParts?_text]
  simp [ParamRun.writeList?, String.append_assoc]

end Items

/-! ## Generic types -/

/-- A `node` that is written by name takes the texts that the types in its brackets have by
themselves. The `g.depth` that suffices for these suffices for `id`. -/
theorem tokens?_depth_of_name {id : TypeId} {node : TypeNode} (hnode : g.get? id = some node)
    (hname : node.aliased?.isSome) :
    g.tokens? g.depth [] id = allTokens? (g.tokens? g.depth []) (g.parts node) := by
  have hstep : ∀ n, g.tokens? (n + 1) [] id = allTokens? (g.tokens? n []) (g.parts node) := by
    intro n
    rw [tokens?, hnode]
    simp [TypeNode.enter, hname]
  refine Option.ext fun ts => ⟨fun h => ?_, fun h => ?_⟩
  · exact (hstep g.depth).symm.trans (g.keeps_tokens [] g.depth id ts h)
  · exact tokens?_depth_iff.2 ⟨g.depth + 1, (hstep g.depth).trans h⟩

theorem typeText?_of_name {id : TypeId} {node : TypeNode} (hnode : g.get? id = some node)
    (hname : node.aliased?.isSome) (q : Qualifier σ) :
    g.typeText? q id = writeParts? q (g.typeText? q) (g.parts node) := by
  funext s
  rw [typeText?_eq, writeParts?_eq (fun t s => g.typeText?_eq q t s),
    tokens?_depth_of_name hnode hname]

/-- A generic type `id` without arguments is written as its `name` and, in brackets, its type
parameters run by run: the `names` of a run, and behind them its `constraint`, once. The qualifier
is led through the constraints of the `runs` in order. This holds wherever `id` is written, and by
itself. -/
theorem text_constraintRuns {id : TypeId} {name : String} {package : Option PackageRef}
    {params : List TypeParamSpec} {underlying : TypeId}
    (hnode : g.get? id = some (.named name package params [] underlying))
    (hparams : params ≠ []) :
    (∃ runs, ParamRun.Maximal params runs) ∧
    ∀ runs, ParamRun.Maximal params runs → ∀ (σ : Type) (q : Qualifier σ),
      (∀ depth active, id ∉ active →
        g.write? q (depth + 1) active id = do
          let text ← writeParts? q (g.write? q depth active) (typeName package name)
          let list ← ParamRun.writeList? (g.write? q depth active) runs
          return text ++ list) ∧
      g.typeText? q id = do
        let text ← writeParts? q (g.typeText? q) (typeName package name)
        let list ← ParamRun.writeList? (g.typeText? q) runs
        return text ++ list := by
  refine ⟨ParamRun.exists_maximal params, fun runs hruns σ q => ⟨fun depth active hid => ?_, ?_⟩⟩
  · rw [write?, hnode]
    simp only [if_neg hid]
    exact writeParts?_runs q _ package name hparams hruns
  · rw [typeText?_of_name hnode rfl]
    exact writeParts?_runs q _ package name hparams hruns

/-- `Map` has three type parameters with the constraint `Ordered`, the last of them apart from the
others. -/
def grouped : TypeGraph where
  nodes := #[
    .struct [],
    .named "Ordered" (some ⟨"cmp", "cmp"⟩) [] [] 0,
    .aliasOf "any" none 0,
    .named "Map" (some ⟨"p", "p"⟩) [⟨"K", 1⟩, ⟨"V", 1⟩, ⟨"N", 2⟩, ⟨"M", 1⟩] [] 0,
    .slice 3]

def groupedRuns : List ParamRun :=
  [⟨["K", "V"], 1, by simp⟩, ⟨["N"], 2, by simp⟩, ⟨["M"], 1, by simp⟩]

theorem maximal_groupedRuns :
    ParamRun.Maximal [⟨"K", 1⟩, ⟨"V", 1⟩, ⟨"N", 2⟩, ⟨"M", 1⟩] groupedRuns where
  flatMap_params := rfl
  apart := by simp [groupedRuns]

/-- The package of `Ordered` is asked about twice, for the two runs with that constraint. -/
theorem text_constraintRuns_grouped :
    ParamRun.Maximal [⟨"K", 1⟩, ⟨"V", 1⟩, ⟨"N", 2⟩, ⟨"M", 1⟩] groupedRuns ∧ (3 : TypeId) ∉ [4] ∧
      grouped.write? .listing 2 [4] 3 [] =
        some ("Map[K, V Ordered, N any, M Ordered]",
          [⟨"p", "p"⟩, ⟨"cmp", "cmp"⟩, ⟨"cmp", "cmp"⟩]) ∧
      grouped.typeText? .fullPath 3 () =
        some ("p.Map[K, V cmp.Ordered, N any, M cmp.Ordered]", ()) := by
  have hnode : grouped.get? 3 = some (.named "Map" (some ⟨"p", "p"⟩)
      [⟨"K", 1⟩, ⟨"V", 1⟩, ⟨"N", 2⟩, ⟨"M", 1⟩] [] 0) := rfl
  obtain ⟨-, hruns⟩ := text_constraintRuns hnode (List.cons_ne_nil _ _)
  have hid : (3 : TypeId) ∉ [4] := by decide
  refine ⟨maximal_groupedRuns, hid, ?_, ?_⟩
  · rw [(hruns _ maximal_groupedRuns _ .listing).1 1 [4] hid]
    rfl
  · rw [(hruns _ maximal_groupedRuns _ .fullPath).2]
    rfl

end TypeGraph

end Understudy
