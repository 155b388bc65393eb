import Understudy.Proofs.Extraction
import Understudy.Proofs.WrittenOnce

/-!
# Two ways to write a signature

A signature is written in one go, as in the body of an interface, or one slot at a time, as for the
description of a method. A slice that takes the remaining arguments is written by its element in the
first case; in the second it is written as a slice, and the brackets are taken off the text. The two
agree if no type in the signature is met again while it is being written.

* `TypeGraph.signatureText?_eq_spell`: the text of a signature by the tokens of its slots.
* `Extract.spell_slots`, `Extract.spell_slots_spread`: slots in one go, told by slots one at a time.
* `Extract.signatureText_agrees`: the text of a signature, told by the description of a method.
-/

namespace Understudy

namespace TypeGraph

open TypePart

variable {σ : Type} {g : TypeGraph}

/-! ## Parts that are all written -/

/-- The tokens of a part in `g`. -/
def partTokens (g : TypeGraph) : TypePart → List Token
  | .text s => [.text s]
  | .package p => [.package p]
  | .type id => g.tokens id

theorem allTokens?_eq_flatMap {parts : List TypePart}
    (h : ∀ t, .type t ∈ parts → g.WrittenOnce t) :
    allTokens? (g.tokens? g.depth []) parts = some (parts.flatMap g.partTokens) := by
  induction parts with
  | nil => rfl
  | cons part rest ih =>
    have hpart : part.tokens? (g.tokens? g.depth []) = some (g.partTokens part) := by
      cases part with
      | text s => rfl
      | package p => rfl
      | type t => exact (h t List.mem_cons_self).tokens_eq
    rw [allTokens?, hpart, ih fun t ht => h t (List.mem_cons_of_mem _ ht)]
    rfl

theorem partOf_of_signatureParts {id t : TypeId} (h : .type t ∈ g.signatureParts id) :
    g.PartOf t id := by
  unfold signatureParts at h
  split at h
  · rename_i params results variadic hnode
    exact ⟨_, hnode, List.mem_cons_of_mem _ h⟩
  · simp at h

theorem signatureText?_eq_spell {id : TypeId} (h : g.WrittenOnce id) (q : Qualifier σ) (s : σ) :
    g.signatureText? q id s =
      some (Token.spell q ((g.signatureParts id).flatMap g.partTokens) s) := by
  have htokens := allTokens?_eq_flatMap fun t ht => h.part (partOf_of_signatureParts ht)
  rw [signatureText?_eq, signatureTokens?, htokens, Option.map_some]

theorem flatMap_joined (g : TypeGraph) (sep : String) (items : List (List TypePart)) :
    (joined sep items).flatMap g.partTokens =
      [Token.text sep].intercalate (items.map (·.flatMap g.partTokens)) := by
  unfold joined
  induction items with
  | nil => rfl
  | cons item items ih =>
    cases items with
    | nil => simp [List.intercalate]
    | cons item' items =>
      rw [List.intercalate_cons_cons, List.flatMap_append, List.flatMap_append, ih]
      simp [List.intercalate_cons_cons, partTokens]

theorem slotType_mem_slotTypes {variadic : Bool} {vars : List Var} {v : Var}
    (h : v ∈ vars.getLast?) : g.slotType variadic v ∈ g.slotTypes variadic vars := by
  induction vars with
  | nil => cases h
  | cons u vs ih =>
    cases vs with
    | nil =>
      obtain rfl := Option.some.inj h
      exact List.mem_cons_self
    | cons w ws => exact List.mem_cons_of_mem _ (ih (by simpa using h))

theorem writtenOnce_of_slotType {spread : Bool} {v : Var}
    (h : g.WrittenOnce (g.slotType spread v)) : g.WrittenOnce v.type := by
  unfold slotType at h
  split at h
  · rename_i elem hnode
    refine writtenOnce_of_parts fun t ⟨node, hnode', ht⟩ => ?_
    obtain rfl := Option.some.inj (hnode.symm.trans hnode')
    obtain rfl : t = elem := by simpa [parts] using ht
    exact h
  · exact h

/-- Slots `vars` whose types are `WrittenOnce` in a signature have types that are, also the slice
that a signature shows the element of. -/
theorem writtenOnce_of_slotTypes {variadic : Bool} {vars : List Var}
    (h : ∀ t ∈ g.slotTypes variadic vars, g.WrittenOnce t) : ∀ v ∈ vars, g.WrittenOnce v.type := by
  fun_induction slotTypes g variadic vars with
  | case1 => exact fun v hv => absurd hv List.not_mem_nil
  | case2 v =>
    exact List.forall_mem_singleton.2 (writtenOnce_of_slotType (List.forall_mem_singleton.1 h))
  | case3 v vs _ ih =>
    rw [List.forall_mem_cons] at h ⊢
    exact ⟨h.1, ih h.2⟩

theorem hasText_of_signature {sig : TypeId} {params results : List Var} {variadic : Bool}
    (hsig : g.get? sig = some (.signature params results variadic)) (honce : g.WrittenOnce sig) :
    (∀ v ∈ params, g.hasText v.type = true) ∧ ∀ v ∈ results, g.hasText v.type = true := by
  have hpart : ∀ t ∈ g.slotTypes variadic params ++ results.map (·.type), g.WrittenOnce t :=
    fun t ht => honce.part ⟨_, hsig, type_mem_parts_iff.2 ht⟩
  rw [List.forall_mem_append, List.forall_mem_map] at hpart
  exact ⟨fun v hv => (writtenOnce_of_slotTypes hpart.1 v hv).hasText,
    fun v hv => (hpart.2 v hv).hasText⟩

end TypeGraph

/-! ## Slots in one go and one at a time -/

/-- The tokens of the slots `vars` with commas between them. -/
def TypeGraph.slotTokens (g : TypeGraph) (variadic : Bool) (vars : List Var) : List Token :=
  [Token.text ", "].intercalate ((g.varsParts variadic vars).map (·.flatMap g.partTokens))

namespace Mock

/-- A slot of a signature as it is written: its `type`, behind its `name` if it has one. -/
def slotText (name type : String) : String :=
  if name = "" then type else name ++ " " ++ type

/-- The parameter `p` as a signature shows it. -/
def Param.slot (p : Param) : String := slotText p.name p.declaredType

/-- The results `rs` as they follow the parameters of a signature. -/
def Results.clause (rs : Results) : String :=
  if rs = [] then "" else " " ++ rs.text

theorem declaredType_spread (name elem : String) :
    (Param.mk name ("[]" ++ elem) true).declaredType = "..." ++ elem := by
  have hchars : ("[]" ++ elem).toList = '[' :: ']' :: elem.toList := by
    rw [String.toList_append]
    rfl
  simp [Param.declaredType, hchars]

namespace Params

theorem typesText_of_unnamed {ps : Params} (h : ∀ p ∈ ps, p.name = "") :
    ps.typesText = "(" ++ ", ".intercalate (ps.map Param.slot) ++ ")" := by
  have hslots : ps.map Param.slot = ps.map Param.declaredType :=
    List.map_congr_left fun p hp => by rw [Param.slot, slotText, if_pos (h p hp)]
  rw [typesText, hslots]

theorem namedText_of_named {ps : Params} (h : ∀ p ∈ ps, p.name ≠ "" ∧ p.name ≠ "_") :
    ps.namedText = ", ".intercalate (ps.map Param.slot) := by
  have hslots : ps.map Param.slot = ps.mapIdx fun i p => ps.argName i ++ " " ++ p.declaredType := by
    refine List.ext_getElem (by simp) fun n hn _ => ?_
    rw [List.length_map] at hn
    simp [Param.slot, slotText, argName, hn, h _ (List.getElem_mem hn)]
  rw [namedText, hslots]

end Params

end Mock

namespace Extract

open Mock (slotText)
open Outcome (InTurn)

variable {σ β : Type} {g : TypeGraph} {q : Qualifier σ}

/-- The parameter `v` without a mark, given the text `type` of its type. -/
def paramOf (v : Var) (type : String) : Mock.Param := { name := v.name, type }

/-- The result `v`, given the text `type` of its type. -/
def resultOf (v : Var) (type : String) : Mock.Result := { name := v.name, type }

/-- A slot as it is described on its own: what `make` makes of it and of the text of its type. -/
def describeSlot (g : TypeGraph) (q : Qualifier σ) (make : Var → String → β) (v : Var) :
    Extraction σ β := do
  return make v (← typeText g q v.type)

theorem describeSlot_run (make : Var → String → β) {v : Var} (h : g.hasText v.type = true) (s : σ) :
    (describeSlot g q make v).run s =
      (.ok (make v (Token.spell q (g.tokens v.type) s).1),
        (Token.spell q (g.tokens v.type) s).2) :=
  make_typeText_run (make v) h q s

theorem describeSlot_ok {make : Var → String → β} {v : Var} {b : β} {s s₁ : σ}
    (h : (describeSlot g q make v).run s = (.ok b, s₁)) :
    b = make v (Token.spell q (g.tokens v.type) s).1 ∧
      s₁ = (Token.spell q (g.tokens v.type) s).2 := by
  obtain ⟨text, s₂, htext, -⟩ := Outcome.run_bind_ok h
  rw [describeSlot_run make (hasText_of_typeText htext)] at h
  cases h
  exact ⟨rfl, rfl⟩

theorem slot_paramOf (v : Var) (type : String) :
    (paramOf v type).slot = slotText v.name type := by
  simp [paramOf, Mock.Param.slot, Mock.Param.declaredType]

theorem exists_inTurn_describeSlot (q : Qualifier σ) (make : Var → String → β) {vars : List Var}
    (h : ∀ v ∈ vars, g.hasText v.type = true) (s : σ) :
    ∃ bs s₁, InTurn (describeSlot g q make) s vars bs s₁ := by
  induction vars generalizing s with
  | nil => exact ⟨[], s, .nil s⟩
  | cons v vs ih =>
    obtain ⟨hv, hvs⟩ := List.forall_mem_cons.1 h
    obtain ⟨bs, s₁, hbs⟩ := ih hvs (Token.spell q (g.tokens v.type) s).2
    exact ⟨_, s₁, .cons (describeSlot_run make hv s) hbs⟩

theorem spell_varParts (v : Var) (s : σ) :
    Token.spell q ((g.varParts false v).flatMap g.partTokens) s =
      (slotText v.name (Token.spell q (g.tokens v.type) s).1,
        (Token.spell q (g.tokens v.type) s).2) := by
  by_cases hname : v.name = ""
  · apply Prod.ext <;> simp [TypeGraph.varParts, hname, TypeGraph.partTokens, slotText]
  · simp [TypeGraph.varParts, hname, TypeGraph.partTokens, slotText, Token.spell,
      String.append_assoc]

theorem spell_varParts_spread {v : Var} {elem : TypeId}
    (hnode : g.get? v.type = some (.slice elem))
    (htokens : g.tokens v.type = .text "[]" :: g.tokens elem) (s : σ) :
    Token.spell q ((g.varParts true v).flatMap g.partTokens) s =
      (Mock.Param.slot ⟨v.name, (Token.spell q (g.tokens v.type) s).1, true⟩,
        (Token.spell q (g.tokens v.type) s).2) := by
  rw [htokens, Mock.Param.slot]
  simp only [Token.spell, Mock.declaredType_spread]
  by_cases hname : v.name = ""
  · simp [TypeGraph.varParts, hnode, hname, TypeGraph.partTokens, slotText, Token.spell]
  · simp [TypeGraph.varParts, hnode, hname, TypeGraph.partTokens, slotText, Token.spell,
      String.append_assoc]

/-- The slot `v` is written and then the others, in the state that it leaves. -/
theorem spell_slotTokens_cons (variadic : Bool) (v w : Var) (ws : List Var) (s : σ) :
    Token.spell q (g.slotTokens variadic (v :: w :: ws)) s =
      (slotText v.name (Token.spell q (g.tokens v.type) s).1 ++ ", " ++
          (Token.spell q (g.slotTokens variadic (w :: ws))
            (Token.spell q (g.tokens v.type) s).2).1,
        (Token.spell q (g.slotTokens variadic (w :: ws))
          (Token.spell q (g.tokens v.type) s).2).2) := by
  have hne : (g.varsParts variadic (w :: ws)).map (·.flatMap g.partTokens) ≠ [] := by
    cases ws <;> simp [TypeGraph.varsParts]
  have hcons : g.slotTokens variadic (v :: w :: ws) =
      (g.varParts false v).flatMap g.partTokens ++
        (.text ", " :: g.slotTokens variadic (w :: ws)) := by
    have hfirst : g.varsParts variadic (v :: w :: ws) =
        g.varParts false v :: g.varsParts variadic (w :: ws) := rfl
    rw [TypeGraph.slotTokens, hfirst, List.map_cons, List.intercalate_cons_of_ne_nil hne]
    simp [TypeGraph.slotTokens]
  rw [hcons, Token.spell_append, spell_varParts]
  simp [Token.spell, String.append_assoc]

/-- The slots `vars` in one go are those one at a time, with commas between them. -/
theorem spell_slots {make : Var → String → β} {shown : β → String}
    (hshown : ∀ v type, shown (make v type) = slotText v.name type) {vars : List Var} {bs : List β}
    {s s₁ : σ} (h : InTurn (describeSlot g q make) s vars bs s₁) :
    Token.spell q (g.slotTokens false vars) s = (", ".intercalate (bs.map shown), s₁) := by
  induction h with
  | nil s => rfl
  | @cons v vs b bs s s₁ s₂ hv hvs ih =>
    obtain ⟨rfl, rfl⟩ := describeSlot_ok hv
    cases hvs with
    | nil =>
      simp [TypeGraph.slotTokens, TypeGraph.varsParts, List.intercalate, spell_varParts, hshown]
    | cons hw hws =>
      rw [spell_slotTokens_cons, ih]
      simp [hshown]

/-- `spell_slots` with a last slot that takes the remaining arguments. -/
theorem spell_slots_spread {vars : List Var} {ps : Mock.Params} {s s₁ : σ}
    (h : InTurn (describeSlot g q paramOf) s vars ps s₁)
    (hspread : ∀ v ∈ vars.getLast?, ∃ elem, g.get? v.type = some (.slice elem) ∧
      g.tokens v.type = .text "[]" :: g.tokens elem) :
    Token.spell q (g.slotTokens true vars) s =
      (", ".intercalate ((markVariadic ps).map Mock.Param.slot), s₁) := by
  induction h with
  | nil s => rfl
  | @cons v vs p ps s s₁ s₂ hv hvs ih =>
    obtain ⟨rfl, rfl⟩ := describeSlot_ok hv
    cases hvs with
    | nil =>
      obtain ⟨elem, hnode, htokens⟩ := hspread v rfl
      simp [TypeGraph.slotTokens, TypeGraph.varsParts, List.intercalate, markVariadic, paramOf,
        spell_varParts_spread hnode htokens]
    | @cons w ws p' ps s s₁ s₂ hw hws =>
      have hmark : ∀ p, markVariadic (p :: p' :: ps) = p :: markVariadic (p' :: ps) := fun _ => rfl
      have hne : (markVariadic (p' :: ps)).map Mock.Param.slot ≠ [] := by
        cases ps <;> simp [markVariadic]
      rw [spell_slotTokens_cons, ih fun v hv => hspread v (by simpa using hv), hmark, List.map_cons,
        String.intercalate_cons_of_ne_nil hne, slot_paramOf]

theorem spell_tupleParts (vars : List Var) (variadic : Bool) (s : σ) :
    Token.spell q ((g.tupleParts vars variadic).flatMap g.partTokens) s =
      ("(" ++ (Token.spell q (g.slotTokens variadic vars) s).1 ++ ")",
        (Token.spell q (g.slotTokens variadic vars) s).2) := by
  have hparts : (g.tupleParts vars variadic).flatMap g.partTokens =
      .text "(" :: (g.slotTokens variadic vars ++ [.text ")"]) := by
    simp [TypeGraph.tupleParts, TypeGraph.flatMap_joined, TypeGraph.slotTokens,
      TypeGraph.partTokens]
  rw [hparts, Token.spell, Token.spell_append]
  simp [Token.spell, String.append_assoc]

/-- The `results` in one go are those one at a time: nothing, a single type, or slots in
parentheses. -/
theorem spell_resultParts {results : List Var} {rs : Mock.Results} {s s₁ : σ}
    (h : InTurn (describeSlot g q resultOf) s results rs s₁) :
    Token.spell q ((g.resultParts results).flatMap g.partTokens) s = (rs.clause, s₁) := by
  have htuple : Token.spell q ((.text " " :: g.tupleParts results false).flatMap g.partTokens) s =
      (" " ++ ("(" ++ ", ".intercalate (rs.map Mock.Result.text) ++ ")"), s₁) := by
    have hshown : ∀ (v : Var) (type : String), (resultOf v type).text = slotText v.name type :=
      fun _ _ => rfl
    rw [List.flatMap_cons, Token.spell_append, spell_tupleParts]
    simp [TypeGraph.partTokens, Token.spell, spell_slots hshown h]
  cases h with
  | nil s => rfl
  | @cons v vs r rs s s₁ s₂ hv hvs =>
    cases hvs with
    | nil =>
      obtain ⟨rfl, rfl⟩ := describeSlot_ok hv
      by_cases hname : v.name = ""
      · simp [TypeGraph.resultParts, hname, TypeGraph.partTokens, Token.spell,
          Mock.Results.clause, Mock.Results.text, resultOf]
      · rw [TypeGraph.resultParts, if_neg hname, htuple]
        simp [Mock.Results.clause, Mock.Results.text, resultOf, hname]
    | cons hw hws => exact htuple

/-- What `method` goes through: its `params` one after the other, and then its `results`. -/
theorem method_inTurn (q : Qualifier σ) (origin : String) {spec : MethodSpec}
    {params results : List Var} {variadic : Bool}
    (hsig : g.get? spec.signature = some (.signature params results variadic))
    (honce : g.WrittenOnce spec.signature) (s : σ) :
    ∃ ps rs s₁ s₂,
      InTurn (describeSlot g q paramOf) s params ps s₁ ∧
      InTurn (describeSlot g q resultOf) s₁ results rs s₂ ∧
      (method g q origin spec).run s = (.ok {
        name := spec.name
        params := if variadic then markVariadic ps else ps
        results := rs
        origin
        position := spec.position }, s₂) := by
  obtain ⟨hparamTexts, hresultTexts⟩ := TypeGraph.hasText_of_signature hsig honce
  obtain ⟨ps, s₁, hps⟩ := exists_inTurn_describeSlot q paramOf hparamTexts s
  obtain ⟨rs, s₂, hrs⟩ := exists_inTurn_describeSlot q resultOf hresultTexts s₁
  refine ⟨ps, rs, s₁, s₂, hps, hrs, ?_⟩
  have hparams : (params.mapM fun (v : Var) => do
      return Mock.Param.mk v.name (← typeText g q v.type) false).run s = (.ok ps, s₁) :=
    Outcome.run_mapM_iff.2 hps
  have hresults : (results.mapM fun (v : Var) => do
      return Mock.Result.mk v.name (← typeText g q v.type)).run s₁ = (.ok rs, s₂) :=
    Outcome.run_mapM_iff.2 hrs
  simp only [method, hsig, Outcome.run_bind, hparams, hresults, Outcome.run_pure]

theorem names_of_inTurn {params : List Var} {ps : Mock.Params} {s s₁ : σ}
    (h : InTurn (describeSlot g q paramOf) s params ps s₁) :
    ps.map (·.name) = params.map (·.name) := by
  induction h with
  | nil s => rfl
  | cons hv _ ih =>
    obtain ⟨rfl, -⟩ := describeSlot_ok hv
    rw [List.map_cons, ih]
    rfl

/-- The parameters `ps` of a method are called what the slots `params` of its signature are
called. -/
theorem forall_name_of_inTurn {params : List Var} {ps : Mock.Params} {s s₁ : σ}
    (h : InTurn (describeSlot g q paramOf) s params ps s₁) (variadic : Bool) (P : String → Prop)
    (hP : ∀ v ∈ params, P v.name) : ∀ p ∈ if variadic then markVariadic ps else ps, P p.name := by
  have hnames : (if variadic then markVariadic ps else ps).map (·.name) = params.map (·.name) := by
    rw [← names_of_inTurn h]
    cases variadic with
    | false => rfl
    | true => exact map_markVariadic_eq (fun _ => rfl) ps
  rw [← List.forall_mem_map, hnames, List.forall_mem_map]
  exact hP

/-- The slice that takes the remaining arguments is written as brackets and its `elem`, which is
what the signature `sig` shows of it. -/
theorem tokens_of_spread {sig : TypeId} {params results : List Var}
    (hsig : g.get? sig = some (.signature params results true)) (honce : g.WrittenOnce sig)
    {v : Var} {elem : TypeId} (hv : v ∈ params.getLast?)
    (hnode : g.get? v.type = some (.slice elem)) :
    g.tokens v.type = .text "[]" :: g.tokens elem := by
  have hslot : elem ∈ g.slotTypes true params := by
    have hlast : g.slotType true v = elem := by simp [TypeGraph.slotType, hnode]
    rw [← hlast]
    exact TypeGraph.slotType_mem_slotTypes hv
  have hpart : g.PartOf elem sig :=
    ⟨_, hsig, TypeGraph.type_mem_parts_iff.2 (List.mem_append_left _ hslot)⟩
  exact TypeGraph.tokens_slice hnode (honce.part hpart)

/-- The text of the signature `sig`, told by its slots one at a time. -/
theorem signatureText?_of_inTurn {sig : TypeId} {params results : List Var} {variadic : Bool}
    (hsig : g.get? sig = some (.signature params results variadic)) (honce : g.WrittenOnce sig)
    (hspread : variadic = true →
      ∀ v ∈ params.getLast?, ∃ elem, g.get? v.type = some (.slice elem))
    {ps : Mock.Params} {rs : Mock.Results} {s s₁ s₂ : σ}
    (hps : InTurn (describeSlot g q paramOf) s params ps s₁)
    (hrs : InTurn (describeSlot g q resultOf) s₁ results rs s₂) :
    g.signatureText? q sig s =
      some ("(" ++
        ", ".intercalate ((if variadic then markVariadic ps else ps).map Mock.Param.slot) ++
        ")" ++ rs.clause, s₂) := by
  have hslots : Token.spell q (g.slotTokens variadic params) s =
      (", ".intercalate ((if variadic then markVariadic ps else ps).map Mock.Param.slot), s₁) := by
    cases variadic with
    | false => exact spell_slots slot_paramOf hps
    | true =>
      refine spell_slots_spread hps fun v hv => ?_
      obtain ⟨elem, hnode⟩ := hspread rfl v hv
      exact ⟨elem, hnode, tokens_of_spread hsig honce hv hnode⟩
  have hparts : g.signatureParts sig = g.tupleParts params variadic ++ g.resultParts results := by
    rw [TypeGraph.signatureParts, hsig]
  rw [TypeGraph.signatureText?_eq_spell honce, hparts, List.flatMap_append, Token.spell_append,
    spell_tupleParts, hslots, spell_resultParts hrs]

/-- A signature that is `WrittenOnce`, so that no type is met again while it is being written, has a
`text`, and it agrees with the description `m` of a method that has the signature, whatever `q` and
its state. Without names it is the `typesText` of the parameters, with a name for each parameter it
is their `namedText`, and the results follow. The state of `q` is the same in all cases. -/
theorem signatureText_agrees {origin : String} {spec : MethodSpec} {params results : List Var}
    {variadic : Bool} (hsig : g.get? spec.signature = some (.signature params results variadic))
    (honce : g.WrittenOnce spec.signature)
    (hspread : variadic = true →
      ∀ v ∈ params.getLast?, ∃ elem, g.get? v.type = some (.slice elem)) (s : σ) :
    ∃ m text s₁, (method g q origin spec).run s = (.ok m, s₁) ∧
      g.signatureText? q spec.signature s = some (text, s₁) ∧
      ((∀ v ∈ params, v.name = "") →
        text = m.params.typesText ++ if m.results = [] then "" else " " ++ m.results.text) ∧
      ((∀ v ∈ params, v.name ≠ "" ∧ v.name ≠ "_") →
        text = "(" ++ m.params.namedText ++ ")" ++
          if m.results = [] then "" else " " ++ m.results.text) := by
  obtain ⟨ps, rs, s₁, s₂, hps, hrs, hrun⟩ := method_inTurn q origin hsig honce s
  have htext := signatureText?_of_inTurn hsig honce hspread hps hrs
  refine ⟨_, _, s₂, hrun, htext, fun h => ?_, fun h => ?_⟩
  · have hunnamed := forall_name_of_inTurn hps variadic (· = "") h
    rw [Mock.Params.typesText_of_unnamed hunnamed]
    rfl
  · have hnamed := forall_name_of_inTurn hps variadic (fun name => name ≠ "" ∧ name ≠ "_") h
    rw [Mock.Params.namedText_of_named hnamed]
    rfl

/-- In `waiting` a signature has names for its parameters, of which the last takes the remaining
arguments. -/
theorem signatureText_agrees_waiting :
    TypeGraph.waiting.WrittenOnce 5 ∧
    ∃ m text s₁,
      (method TypeGraph.waiting .listing "" ⟨"Wait", 5, ⟨0, 1, 1⟩⟩).run [] = (.ok m, s₁) ∧
      TypeGraph.waiting.signatureText? .listing 5 [] = some (text, s₁) ∧
      text = "(" ++ m.params.namedText ++ ")" ++
        if m.results = [] then "" else " " ++ m.results.text := by
  have honce : TypeGraph.waiting.WrittenOnce 5 :=
    TypeGraph.writtenOnce_of_tokens rfl (by decide)
  obtain ⟨m, text, s₁, hrun, htext, -, hnamed⟩ :=
    @signatureText_agrees _ TypeGraph.waiting .listing "" ⟨"Wait", 5, ⟨0, 1, 1⟩⟩ _ _ _ rfl honce
      (fun _ v hv => by cases hv; exact ⟨1, rfl⟩) []
  exact ⟨honce, m, text, s₁, hrun, htext, hnamed (by decide)⟩

end Extract

end Understudy
