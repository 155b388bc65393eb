import Mathlib.Tactic.IntervalCases
import Understudy.Proofs.Agreement
import Understudy.Proofs.Methods

/-!
# Extraction from resolved types

An extraction asks for the texts of many types: of constraints, parameters and results, and of all
embedded interfaces, to compare them. It does so only after the declared type was found valid, and
the declared type leads to every one of them. So no number out of range and no unresolved type is
ever looked up, and whatever the graph holds in their places changes nothing.

* `Extract.renderedTypes`: the types whose texts an extraction asks for.
* `Extract.leads_of_mem_renderedTypes`: the declared type leads to them.
* `Extract.interface_congr`: an extraction in graphs that agree on the declared type.
* `Extract.interface_looksUp_resolved`: all that is looked up was resolved.
-/

namespace Understudy

/-- `a` is the number of a type of `g`, and the type was resolved. -/
def TypeGraph.Resolved (g : TypeGraph) (a : TypeId) : Prop :=
  ∃ node, g.get? a = some node ∧ node ≠ .basic .invalid

namespace Extract

open TypeGraph (AgreeFrom mem_references_of_get? leads_of_interface? leads_of_mem_embedded)

variable {σ : Type} {g g' : TypeGraph}

/-! ## The types whose texts are asked for -/

/-- The types whose texts an extraction of `type` asks for: those that it writes out, those that the
walk over embedded interfaces compares, and those that declare methods. -/
def renderedTypes (g : TypeGraph) (type : TypeId) : List TypeId :=
  writtenTypes g type ++
    match g.interface? type with
    | some id => g.comparedTypes id ++ g.explode id
    | none => []

theorem leads_of_mem_explode {id member : TypeId} (h : member ∈ g.explode id) :
    g.Leads id member := by
  have hreaches := TypeGraph.reaches_of_mem_explode h
  clear h
  induction hreaches with
  | refl => exact .refl
  | tail _ hb ih => exact ih.trans (leads_of_mem_embedded hb)

theorem leads_signature {member : TypeId} {spec : MethodSpec}
    (h : spec ∈ declaredMethods g member) : g.Leads member spec.signature := by
  unfold declaredMethods at h
  split at h
  · rename_i methods embeddeds implicit hnode
    exact .single (mem_references_of_get? hnode
      (List.mem_append_left _ (List.mem_map_of_mem h)))
  · cases h

theorem leads_of_mem_methodTypes {spec : MethodSpec} {t : TypeId} (h : t ∈ methodTypes g spec) :
    g.Leads spec.signature t := by
  unfold methodTypes at h
  split at h
  · rename_i params results variadic hnode
    exact .single (mem_references_of_get? hnode h)
  · cases h

theorem leads_constraint {type : TypeId} {p : TypeParamSpec}
    (h : p ∈ declaredTypeParams g type) : g.Leads type p.constraint := by
  unfold declaredTypeParams at h
  split at h
  · rename_i name package typeParams typeArgs underlying hnode
    exact .single (mem_references_of_get? hnode
      (List.mem_append_left _ (List.mem_append_left _ (List.mem_map_of_mem h))))
  · cases h

theorem leads_of_mem_writtenTypes {type t : TypeId} (h : t ∈ writtenTypes g type) :
    g.Leads type t := by
  rcases List.mem_append.1 h with h | h
  · obtain ⟨p, hp, rfl⟩ := List.mem_map.1 h
    exact leads_constraint hp
  · split at h
    · rename_i id hid
      obtain ⟨member, hmember, h⟩ := List.mem_flatMap.1 h
      obtain ⟨spec, hspec, h⟩ := List.mem_flatMap.1 h
      have hsignature := (leads_of_mem_explode hmember).trans (leads_signature hspec)
      exact (leads_of_interface? hid).trans (hsignature.trans (leads_of_mem_methodTypes h))
    · cases h

theorem leads_of_mem_comparedTypes {id t : TypeId} (h : t ∈ g.comparedTypes id) :
    g.Leads id t := by
  rcases List.mem_cons.1 h with rfl | h
  · exact .refl
  · obtain ⟨member, hmember, h⟩ := List.mem_flatMap.1 h
    exact (leads_of_mem_explode hmember).trans (leads_of_mem_embedded h)

/-- `type` leads to every type `t` of its `renderedTypes`. -/
theorem leads_of_mem_renderedTypes {type t : TypeId} (h : t ∈ renderedTypes g type) :
    g.Leads type t := by
  rcases List.mem_append.1 h with h | h
  · exact leads_of_mem_writtenTypes h
  · split at h
    · rename_i id hid
      refine (leads_of_interface? hid).trans ?_
      rcases List.mem_append.1 h with h | h
      · exact leads_of_mem_comparedTypes h
      · exact leads_of_mem_explode h
    · cases h

/-! ## Graphs that agree on the declared type -/

theorem mapM_typeText_congr {α β : Type} (q : Qualifier σ) (make : α → String → β)
    (type : α → TypeId) {l : List α} (h : ∀ a ∈ l, AgreeFrom g g' (type a)) :
    (l.mapM fun a => do return make a (← typeText g' q (type a))) =
      l.mapM fun a => do return make a (← typeText g q (type a)) := by
  refine Outcome.mapM_congr fun a ha => ?_
  rw [typeText, typeText, (h a ha).typeText?_eq]

theorem allMethods_congr {id : TypeId} (h : AgreeFrom g g' id) :
    allMethods g' id = allMethods g id := by
  rw [allMethods, allMethods, h.explode_eq]
  refine List.flatMap_congr fun member hmember => ?_
  have hagree := h.mono (leads_of_mem_explode hmember)
  rw [declaredMethods, declaredMethods, hagree.get?_eq, hagree.structuralText_eq]

/-- `explode?` compares the same interfaces in `g` and `g'`, and they have texts in both graphs or
in neither. -/
theorem explode?_congr {id : TypeId} (h : AgreeFrom g g' id) : g'.explode? id = g.explode? id := by
  have hembedded : (g.explode id).flatMap g'.embedded = (g.explode id).flatMap g.embedded :=
    List.flatMap_congr fun member hmember => (h.mono (leads_of_mem_explode hmember)).embedded_eq
  have hcompared : g'.comparedTypes id = g.comparedTypes id := by
    rw [TypeGraph.comparedTypes, TypeGraph.comparedTypes, h.explode_eq, hembedded]
  have hall : (g.comparedTypes id).all g'.hasText = (g.comparedTypes id).all g.hasText :=
    TypeGraph.all_hasText_congr fun a ha => (h.mono (leads_of_mem_comparedTypes ha)).hasText_eq
  rw [TypeGraph.explode?, TypeGraph.explode?, hcompared, hall, h.explode_eq]

theorem method_congr {spec : MethodSpec} (h : AgreeFrom g g' spec.signature) (q : Qualifier σ)
    (origin : String) : method g' q origin spec = method g q origin spec := by
  unfold method
  rw [h.get?_eq]
  split
  · rename_i params results variadic hnode
    have hparams : ∀ v ∈ params, AgreeFrom g g' v.type := fun v hv =>
      h.mono (.single (mem_references_of_get? hnode
        (List.mem_append_left _ (List.mem_map_of_mem hv))))
    have hresults : ∀ v ∈ results, AgreeFrom g g' v.type := fun v hv =>
      h.mono (.single (mem_references_of_get? hnode
        (List.mem_append_right _ (List.mem_map_of_mem hv))))
    congr 1
    · exact mapM_typeText_congr q (fun v text => Mock.Param.mk v.name text false) Var.type hparams
    · funext params
      congr 1
      exact mapM_typeText_congr q (fun v => Mock.Result.mk v.name) Var.type hresults
  · rfl

/-- `interface` depends on the types that `object.type` is made of, and on no others. -/
theorem interface_congr {package : Package} {object : Object}
    (h : AgreeFrom package.types g' object.type) (q : Qualifier σ) :
    interface { package with types := g' } object q = interface package object q := by
  have htypeParams : declaredTypeParams g' object.type =
      declaredTypeParams package.types object.type := by
    rw [declaredTypeParams, declaredTypeParams, h.get?_eq]
  have hconstraints := mapM_typeText_congr q (fun (p : TypeParamSpec) text =>
    Mock.TypeParam.mk p.name text) (·.constraint) fun p hp => h.mono (leads_constraint hp)
  simp only [interface, h.interface?_eq, h.valid_eq, htypeParams, hconstraints]
  cases hid : package.types.interface? object.type with
  | none => rfl
  | some id =>
    have hagree := h.mono (leads_of_interface? hid)
    have hmethods : ((allMethods package.types id).mapM fun m => method g' q m.1 m.2) =
        (allMethods package.types id).mapM fun m => method package.types q m.1 m.2 := by
      refine Outcome.mapM_congr fun m hm => ?_
      obtain ⟨member, hmember, hspec, -⟩ := mem_allMethods.1 hm
      exact method_congr (hagree.mono ((leads_of_mem_explode hmember).trans
        (leads_signature hspec))) q m.1
    simp only [allMethods_congr hagree, hmethods, explode?_congr hagree]

/-! ## What is looked up -/

/-- Where `interface` succeeds, every type that is looked up to write out one of the `renderedTypes`
is one of the graph and was `Resolved`. So `interface` gives the same in every graph `g'` that has
the same resolved types, whatever stands there for the numbers out of range and for the unresolved
types. -/
theorem interface_looksUp_resolved {q : Qualifier σ} {package : Package} {object : Object}
    {i : Mock.Interface} {s s₁ : σ} (h : (interface package object q).run s = (.ok i, s₁)) :
    (∀ t ∈ renderedTypes package.types object.type, ∀ a, package.types.LooksUp [] t a →
        package.types.Resolved a) ∧
      ∀ g' : TypeGraph, (∀ a, package.types.Resolved a → g'.get? a = package.types.get? a) →
        (interface { package with types := g' } object q).run s = (.ok i, s₁) := by
  obtain ⟨-, -, -, -, -, -, hvalid, -⟩ := interface_steps h
  have hresolved : ∀ a, package.types.Leads object.type a → package.types.Resolved a :=
    TypeGraph.valid_iff_leads.1 hvalid
  constructor
  · intro t ht a hlooksUp
    exact hresolved a ((leads_of_mem_renderedTypes ht).trans hlooksUp.leads)
  · intro g' hagree
    have hfrom : AgreeFrom package.types g' object.type := fun a ha => hagree a (hresolved a ha)
    rw [interface_congr hfrom, h]

/-- `I` has a variadic method. The graph also holds an unresolved type and a pointer to a type that
is not there, and `I` leads to neither. -/
def stray : Package :=
  ofTypes #[
    .basic .string,
    .slice 0,
    .signature [⟨"args", 1⟩] [] true,
    .interface [⟨"M", 2, ⟨0, 2, 1⟩⟩] [] false,
    .named "I" (some ⟨"p", "p"⟩) [] [] 3,
    .basic .invalid,
    .pointer 7]

/-- The types of `stray` with others for the one that was not resolved and the one that is not
there. -/
def strayResolved : TypeGraph where
  nodes := #[
    .basic .string,
    .slice 0,
    .signature [⟨"args", 1⟩] [] true,
    .interface [⟨"M", 2, ⟨0, 2, 1⟩⟩] [] false,
    .named "I" (some ⟨"p", "p"⟩) [] [] 3,
    .map 0 6,
    .pointer 7,
    .slice 5]

theorem interface_stray :
    (interface stray (declarationOf 4) (ImportScope.mk "p" []).qualify).run [] =
      (.ok {
        name := "I"
        typeParams := []
        methods := [{
          name := "M"
          params := [{ name := "args", type := "[]string", variadic := true }]
          results := []
          origin := "interface\x7bM(args ...string)\x7d"
          position := ⟨0, 2, 1⟩ }] }, []) :=
  interface_of_explode rfl rfl (TypeGraph.valid_of_closed [0, 1, 2, 3, 4] rfl (by decide))
    (TypeGraph.explode_of_within 1 rfl) rfl rfl rfl (List.mergeSort_singleton _)

theorem get?_strayResolved (a : TypeId) (h : stray.types.Resolved a) :
    strayResolved.get? a = stray.types.get? a := by
  obtain ⟨node, hnode, hresolved⟩ := h
  have hlt : a.toNat < 7 := (Array.getElem?_eq_some_iff.1 hnode).1
  simp only [TypeGraph.get?] at hnode ⊢
  generalize a.toNat = n at hnode hlt ⊢
  have hne : n ≠ 5 := by
    rintro rfl
    exact hresolved (Option.some.inj hnode).symm
  interval_cases n <;> first | rfl | exact absurd rfl hne

/-- In `stray` neither the unresolved type nor the missing one is looked up, and the extraction is
the same with others in their places. -/
theorem interface_looksUp_resolved_stray :
    ∃ i, (interface stray (declarationOf 4) (ImportScope.mk "p" []).qualify).run [] =
        (.ok i, []) ∧
      (∀ t ∈ renderedTypes stray.types 4, ∀ a, stray.types.LooksUp [] t a →
        stray.types.Resolved a) ∧
      (¬ stray.types.Resolved 5 ∧ ¬ stray.types.Resolved 7) ∧
      (interface { stray with types := strayResolved } (declarationOf 4)
        (ImportScope.mk "p" []).qualify).run [] = (.ok i, []) := by
  obtain ⟨hlooksUp, hother⟩ := interface_looksUp_resolved interface_stray
  refine ⟨_, interface_stray, hlooksUp, ⟨?_, ?_⟩, hother strayResolved get?_strayResolved⟩
  · rintro ⟨node, hnode, hresolved⟩
    exact hresolved (Option.some.inj hnode).symm
  · rintro ⟨node, hnode, -⟩
    cases hnode

end Extract

end Understudy
