import Understudy.Extract.Interface
import Understudy.Proofs.Outcome
import Understudy.Proofs.Printed

/-!
# Extraction through a qualifier

For a qualifier whose answers do not depend on its state, what an extraction gives and what it does
to the state fall apart: the result is that of fixed answers, and the state is led over the packages
printed by the types written, in order.

* `Extract.typeText_of_hasText`, `Extract.typeText_of_not_hasText`: the two outcomes of a text.
* `Extract.rendering`: the description of a method with fixed answers.
* `Extract.method_run`, `Extract.method_ok`: what describing a method gives and does.
* `Extract.writtenTypes`: the types written out for a declared type, in order.
* `Extract.interface_steps`, `Extract.interface_ok`: what an extraction that succeeded went through,
  for any qualifier and for one with fixed answers.
* `Extract.interface_of_steps`: what it gives once it has come to the methods.
* `Extract.interface_run_of_ok`: it succeeds from every state, with the same result.
-/

namespace Understudy

namespace Qualifier

variable {σ α : Type}

@[simp] theorem after_append (q : Qualifier σ) (ps ps' : List PackageRef) (s : σ) :
    q.after (ps ++ ps') s = q.after ps' (q.after ps s) :=
  List.foldl_append

/-- `q.after`, step by step over the lists of packages `f a`, is one walk over all of them. -/
theorem foldl_after (q : Qualifier σ) (f : α → List PackageRef) (l : List α) (s : σ) :
    l.foldl (fun s a => q.after (f a) s) s = q.after (l.flatMap f) s := by
  induction l generalizing s with
  | nil => rfl
  | cons a l ih => rw [List.foldl_cons, ih, List.flatMap_cons, after_append]

end Qualifier

namespace Extract

variable {σ α β : Type} {g : TypeGraph} {q : Qualifier σ} {answer : PackageRef → String}

/-! ## Texts -/

theorem typeText_of_hasText {id : TypeId} (h : g.hasText id = true) (q : Qualifier σ) (s : σ) :
    (typeText g q id).run s =
      (.ok (Token.spell q (g.tokens id) s).1, (Token.spell q (g.tokens id) s).2) := by
  simp only [typeText, ExceptT.run_mk, TypeGraph.typeText?_of_hasText h]
  rfl

theorem typeText_of_not_hasText {id : TypeId} (h : g.hasText id = false) (q : Qualifier σ) (s : σ) :
    (typeText g q id).run s = (.error .endless, s) := by
  simp only [typeText, ExceptT.run_mk, TypeGraph.typeText?_of_not_hasText h]

/-- What `make` gives for the text of `id`, through whatever `q`. -/
theorem make_typeText_run (make : String → β) {id : TypeId} (h : g.hasText id = true)
    (q : Qualifier σ) (s : σ) :
    ExceptT.run (do return make (← typeText g q id)) s =
      (.ok (make (Token.spell q (g.tokens id) s).1), (Token.spell q (g.tokens id) s).2) := by
  rw [Outcome.run_bind, typeText_of_hasText h]
  rfl

/-- `typeText` writes only a type that has a text, through whatever `q`. -/
theorem hasText_of_typeText {id : TypeId} {text : String} {s s₁ : σ}
    (h : (typeText g q id).run s = (.ok text, s₁)) : g.hasText id = true := by
  cases htext : g.hasText id with
  | true => rfl
  | false =>
    rw [typeText_of_not_hasText htext] at h
    cases h

theorem typeText_run (hq : q.Answers answer) {id : TypeId} (h : g.hasText id = true) (s : σ) :
    (typeText g q id).run s = (.ok (g.textWith answer id), q.after (g.printedPackages id) s) := by
  rw [typeText_of_hasText h, Token.spell_fst hq, Token.spell_snd, g.packages_tokens,
    TypeGraph.textWith]

/-- Items `make a text`, each from the text of `type a`. -/
theorem mapM_typeText_run (hq : q.Answers answer) (make : α → String → β) (type : α → TypeId)
    {l : List α} (h : ∀ a ∈ l, g.hasText (type a) = true) (s : σ) :
    (l.mapM fun a => do return make a (← typeText g q (type a))).run s =
      (.ok (l.map fun a => make a (g.textWith answer (type a))),
        q.after (l.flatMap fun a => g.printedPackages (type a)) s) := by
  rw [← q.foldl_after]
  refine Outcome.run_mapM_eq (fun a ha s => ?_) s
  rw [Outcome.run_bind, typeText_run hq (h a ha)]
  rfl

/-- If the items `make a text` were made, every `type a` has a text. -/
theorem forall_hasText_of_mapM {make : α → String → β} {type : α → TypeId} {l : List α}
    {bs : List β} {s s₁ : σ}
    (h : (l.mapM fun a => do return make a (← typeText g q (type a))).run s = (.ok bs, s₁)) :
    ∀ a ∈ l, g.hasText (type a) = true := by
  rw [Outcome.run_mapM_iff] at h
  induction h with
  | nil => exact fun a ha => absurd ha List.not_mem_nil
  | cons hfirst _ ih =>
    obtain ⟨text, s₂, htext, -⟩ := Outcome.run_bind_ok hfirst
    exact List.forall_mem_cons.2 ⟨hasText_of_typeText htext, ih⟩

/-! ## Methods -/

/-- The types that the description of `spec` writes out: those of its parameters and results. -/
def methodTypes (g : TypeGraph) (spec : MethodSpec) : List TypeId :=
  match g.get? spec.signature with
  | some (.signature params results _) => params.map (·.type) ++ results.map (·.type)
  | _ => []

/-- The description of `spec` with fixed answers, if it has a signature and all of its types have
texts. -/
def rendering (g : TypeGraph) (answer : PackageRef → String) (origin : String)
    (spec : MethodSpec) : Option Mock.Method :=
  match g.get? spec.signature with
  | some (.signature params results variadic) =>
    if (methodTypes g spec).all g.hasText then
      let params := params.map fun v => { name := v.name, type := g.textWith answer v.type }
      some {
        name := spec.name
        params := if variadic then markVariadic params else params
        results := results.map fun v => { name := v.name, type := g.textWith answer v.type }
        origin
        position := spec.position }
    else none
  | _ => none

/-- The types of the parameters that `spec` takes. -/
def paramTypes (g : TypeGraph) (spec : MethodSpec) : List TypeId :=
  match g.get? spec.signature with
  | some (.signature params _ _) => params.map (·.type)
  | _ => []

/-- What does not look at the mark `variadic` of a parameter is the same after `markVariadic`. -/
theorem map_markVariadic_eq {f : Mock.Param → β}
    (hf : ∀ p : Mock.Param, f { p with variadic := true } = f p) (ps : Mock.Params) :
    (markVariadic ps).map f = ps.map f := by
  fun_induction markVariadic ps with
  | case1 => rfl
  | case2 p => rw [List.map_singleton, hf, List.map_singleton]
  | case3 p ps hps ih => rw [List.map_cons, ih, List.map_cons]

/-- A `rendering` that is there is made from a signature whose `methodTypes` all have texts. -/
theorem rendering_eq_some {origin : String} {spec : MethodSpec} {m : Mock.Method}
    (h : rendering g answer origin spec = some m) :
    ∃ params results variadic,
      g.get? spec.signature = some (.signature params results variadic) ∧
      (∀ t ∈ methodTypes g spec, g.hasText t = true) ∧
      m = {
        name := spec.name
        params :=
          let params := params.map fun v => { name := v.name, type := g.textWith answer v.type }
          if variadic then markVariadic params else params
        results := results.map fun v => { name := v.name, type := g.textWith answer v.type }
        origin
        position := spec.position } := by
  unfold rendering at h
  split at h
  · rename_i params results variadic hnode
    obtain ⟨htexts, h⟩ := Option.ite_none_right_eq_some.1 h
    exact ⟨params, results, variadic, hnode, List.all_eq_true.1 htexts, (Option.some.inj h).symm⟩
  · cases h

/-- `rendering` describes `spec` with the texts of its `paramTypes`. -/
theorem types_rendering {origin : String} {spec : MethodSpec} {m : Mock.Method}
    (h : rendering g answer origin spec = some m) :
    m.params.map (·.type) = (paramTypes g spec).map (g.textWith answer) := by
  obtain ⟨params, results, variadic, hnode, -, rfl⟩ := rendering_eq_some h
  rw [paramTypes, hnode]
  cases variadic with
  | false => simp [Function.comp_def]
  | true => simp [map_markVariadic_eq, Function.comp_def]

/-- `method` gives the `rendering` of `spec` and asks about the packages of its `methodTypes`. -/
theorem method_run (hq : q.Answers answer) {origin : String} {spec : MethodSpec} {m : Mock.Method}
    (h : rendering g answer origin spec = some m) (s : σ) :
    (method g q origin spec).run s =
      (.ok m, q.after ((methodTypes g spec).flatMap g.printedPackages) s) := by
  obtain ⟨params, results, variadic, hnode, htexts, rfl⟩ := rendering_eq_some h
  have htypes : methodTypes g spec = params.map (·.type) ++ results.map (·.type) := by
    rw [methodTypes, hnode]
  rw [htypes] at htexts ⊢
  have hparams : ∀ v ∈ params, g.hasText v.type = true := fun v hv =>
    htexts _ (List.mem_append_left _ (List.mem_map_of_mem hv))
  have hresults : ∀ v ∈ results, g.hasText v.type = true := fun v hv =>
    htexts _ (List.mem_append_right _ (List.mem_map_of_mem hv))
  simp only [method, hnode, Outcome.run_bind, mapM_typeText_run hq _ _ hparams,
    mapM_typeText_run hq _ _ hresults]
  rw [Outcome.run_pure, List.flatMap_append, q.after_append, List.flatMap_map, List.flatMap_map]

/-- If `method` described `spec`, that has a signature, and all of its `methodTypes` have texts. -/
theorem method_steps {origin : String} {spec : MethodSpec} {m : Mock.Method} {s s₁ : σ}
    (h : (method g q origin spec).run s = (.ok m, s₁)) :
    (∃ params results variadic,
      g.get? spec.signature = some (.signature params results variadic)) ∧
      ∀ t ∈ methodTypes g spec, g.hasText t = true := by
  unfold method at h
  split at h
  · rename_i params results variadic hnode
    obtain ⟨ps, s₂, hps, h⟩ := Outcome.run_bind_ok h
    obtain ⟨rs, s₃, hrs, -⟩ := Outcome.run_bind_ok h
    refine ⟨⟨params, results, variadic, hnode⟩, ?_⟩
    simp only [methodTypes, hnode, List.forall_mem_append, List.forall_mem_map]
    exact ⟨forall_hasText_of_mapM hps, forall_hasText_of_mapM hrs⟩
  · cases h

theorem method_ok (hq : q.Answers answer) {origin : String} {spec : MethodSpec} {m : Mock.Method}
    {s s₁ : σ} (h : (method g q origin spec).run s = (.ok m, s₁)) :
    rendering g answer origin spec = some m ∧
      s₁ = q.after ((methodTypes g spec).flatMap g.printedPackages) s := by
  obtain ⟨⟨params, results, variadic, hnode⟩, htexts⟩ := method_steps h
  have hrendering : ∃ r, rendering g answer origin spec = some r := by
    rw [rendering, hnode]
    exact ⟨_, if_pos (List.all_eq_true.2 htexts)⟩
  obtain ⟨r, hr⟩ := hrendering
  rw [method_run hq hr] at h
  cases h
  exact ⟨hr, rfl⟩

/-! ## Interfaces -/

/-- The types written out for the declared type `type`: the constraints of its type parameters, and
then the `methodTypes` of every method that an interface of its explosion declares. -/
def writtenTypes (g : TypeGraph) (type : TypeId) : List TypeId :=
  (declaredTypeParams g type).map (·.constraint) ++
    match g.interface? type with
    | some id =>
      (g.explode id).flatMap fun member => (declaredMethods g member).flatMap (methodTypes g)
    | none => []

theorem flatMap_allMethods (g : TypeGraph) (id : TypeId) (f : MethodSpec → List α) :
    ((allMethods g id).flatMap fun m => f m.2) =
      (g.explode id).flatMap fun member => (declaredMethods g member).flatMap f := by
  rw [allMethods, List.flatMap_assoc]
  congr 1
  funext member
  rw [List.flatMap_map]

theorem explode?_of_ne_none {id : TypeId} (h : g.explode? id ≠ none) :
    g.explode? id = some (g.explode id) := by
  unfold TypeGraph.explode? at h ⊢
  split at h
  · rename_i hall
    rw [if_pos hall]
  · exact absurd rfl h

/-- The steps that `interface` went through if it succeeded, whatever `q` is. -/
theorem interface_steps {package : Package} {object : Object} {i : Mock.Interface} {s s₁ : σ}
    (h : (interface package object q).run s = (.ok i, s₁)) :
    ∃ id typeParams methods s₀, object.kind = .typeName ∧
      package.types.interface? object.type = some id ∧
      package.types.valid object.type = true ∧
      ((declaredTypeParams package.types object.type).mapM fun (p : TypeParamSpec) => do
        return Mock.TypeParam.mk p.name (← typeText package.types q p.constraint)).run s =
          (.ok typeParams, s₀) ∧
      package.types.explode? id = some (package.types.explode id) ∧
      ((allMethods package.types id).mapM fun m => method package.types q m.1 m.2).run s₀ =
        (.ok methods, s₁) ∧
      i = {
        name := object.name
        typeParams
        methods := (Mock.Method.distinct methods).mergeSort fun m n =>
          m.position.le n.position } := by
  simp only [interface] at h
  split at h
  · obtain ⟨_, _, hthrow, -⟩ := Outcome.run_bind_ok h
    cases hthrow
  rename_i hkind
  split at h
  case h_2 => cases h
  rename_i id hid
  split at h
  · obtain ⟨_, _, hthrow, -⟩ := Outcome.run_bind_ok h
    cases hthrow
  rename_i hvalid
  obtain ⟨typeParams, s₀, htypeParams, h⟩ := Outcome.run_bind_ok h
  split at h
  · obtain ⟨_, _, hthrow, -⟩ := Outcome.run_bind_ok h
    cases hthrow
  rename_i hends
  obtain ⟨methods, s₂, hmethods, h⟩ := Outcome.run_bind_ok h
  rw [Outcome.run_pure] at h
  cases h
  exact ⟨id, typeParams, methods, s₀, by simpa using hkind, hid, by simpa using hvalid, htypeParams,
    explode?_of_ne_none (by simpa using hends), hmethods, rfl⟩

/-- If the steps of `interface_steps` can be taken up to the methods, these decide by their outcome
`r` about that of `interface`. -/
theorem interface_of_steps {package : Package} {object : Object} {id : TypeId}
    {typeParams : List Mock.TypeParam} {r : Except ExtractError (List Mock.Method)} {s s₀ s₁ : σ}
    (hkind : object.kind = .typeName) (hid : package.types.interface? object.type = some id)
    (hvalid : package.types.valid object.type = true)
    (htypeParams : ((declaredTypeParams package.types object.type).mapM
      fun (p : TypeParamSpec) => do
        return Mock.TypeParam.mk p.name (← typeText package.types q p.constraint)).run s =
          (.ok typeParams, s₀))
    (hends : package.types.explode? id = some (package.types.explode id))
    (hmethods : ((allMethods package.types id).mapM
      fun m => method package.types q m.1 m.2).run s₀ = (r, s₁)) :
    (interface package object q).run s =
      (r.map fun methods => {
        name := object.name
        typeParams
        methods := (Mock.Method.distinct methods).mergeSort fun m n =>
          m.position.le n.position }, s₁) := by
  simp only [interface, hkind, hid, hvalid, hends, ne_eq, not_true_eq_false, Bool.not_true,
    Bool.false_eq_true, if_false, Option.isNone_some]
  rw [Outcome.run_bind, htypeParams]
  simp only [Outcome.run_bind, hmethods]
  cases r with
  | error e => rfl
  | ok methods => rfl

/-- `interface_of_steps` where the methods are described and the walk is known to give the
interfaces `listed`. -/
theorem interface_of_explode {package : Package} {object : Object} {id : TypeId}
    {listed : List TypeId} {typeParams : List Mock.TypeParam} {methods sorted : List Mock.Method}
    {s s₀ s₁ : σ} (hkind : object.kind = .typeName)
    (hid : package.types.interface? object.type = some id)
    (hvalid : package.types.valid object.type = true)
    (hexplode : package.types.explode id = listed)
    (hcompared : (id :: listed.flatMap package.types.embedded).all package.types.hasText = true)
    (htypeParams : ((declaredTypeParams package.types object.type).mapM
      fun (p : TypeParamSpec) => do
        return Mock.TypeParam.mk p.name (← typeText package.types q p.constraint)).run s =
          (.ok typeParams, s₀))
    (hmethods : ((listed.flatMap fun member => (declaredMethods package.types member).map
      fun spec => (package.types.structuralText member, spec)).mapM
        fun m => method package.types q m.1 m.2).run s₀ = (.ok methods, s₁))
    (hsorted : ((Mock.Method.distinct methods).mergeSort fun m n => m.position.le n.position) =
      sorted) :
    (interface package object q).run s =
      (.ok { name := object.name, typeParams, methods := sorted }, s₁) := by
  subst hexplode
  rw [← hsorted]
  exact interface_of_steps hkind hid hvalid htypeParams (if_pos hcompared) hmethods

/-- The steps that `interface` went through if it succeeded, where `q` has the fixed answers
`answer`. -/
theorem interface_ok (hq : q.Answers answer) {package : Package} {object : Object}
    {i : Mock.Interface} {s s₁ : σ} (h : (interface package object q).run s = (.ok i, s₁)) :
    ∃ id methods, object.kind = .typeName ∧ package.types.interface? object.type = some id ∧
      package.types.valid object.type = true ∧
      (∀ p ∈ declaredTypeParams package.types object.type,
        package.types.hasText p.constraint = true) ∧
      package.types.explode? id = some (package.types.explode id) ∧
      List.Forall₂ (fun m r => rendering package.types answer m.1 m.2 = some r)
        (allMethods package.types id) methods ∧
      i = {
        name := object.name
        typeParams := (declaredTypeParams package.types object.type).map fun p =>
          { name := p.name, constraint := package.types.textWith answer p.constraint }
        methods := (Mock.Method.distinct methods).mergeSort fun m n => m.position.le n.position } ∧
      s₁ = q.after ((writtenTypes package.types object.type).flatMap
        package.types.printedPackages) s := by
  obtain ⟨id, typeParams, methods, s₀, hkind, hid, hvalid, htypeParams, hends, hmethods, rfl⟩ :=
    interface_steps h
  have hconstraints := forall_hasText_of_mapM htypeParams
  rw [mapM_typeText_run hq _ _ hconstraints] at htypeParams
  cases htypeParams
  obtain ⟨hrendered, rfl⟩ := Outcome.run_mapM_ok (fun _ _ _ _ => method_ok hq) hmethods
  refine ⟨id, methods, hkind, hid, hvalid, hconstraints, hends, hrendered, rfl, ?_⟩
  rw [q.foldl_after, writtenTypes, hid, List.flatMap_append, q.after_append, List.flatMap_map]
  simp only [← flatMap_allMethods, List.flatMap_assoc]

/-- If `interface` succeeded in one state `s`, it succeeds in every other `s'` with the same result,
and does the same to the state. -/
theorem interface_run_of_ok (hq : q.Answers answer) {package : Package} {object : Object}
    {i : Mock.Interface} {s s₁ : σ} (h : (interface package object q).run s = (.ok i, s₁))
    (s' : σ) :
    (interface package object q).run s' =
      (.ok i, q.after ((writtenTypes package.types object.type).flatMap
        package.types.printedPackages) s') := by
  obtain ⟨id, methods, hkind, hid, hvalid, hconstraints, hends, hrendered, rfl, -⟩ :=
    interface_ok hq h
  have hmethods : ∀ s, ((allMethods package.types id).mapM
      fun m => method package.types q m.1 m.2).run s =
        (.ok methods, q.after ((allMethods package.types id).flatMap
          fun m => (methodTypes package.types m.2).flatMap package.types.printedPackages) s) := by
    intro s
    rw [← q.foldl_after]
    refine Outcome.run_mapM_of_forall₂ (fun m r hr s => ?_) hrendered s
    exact method_run hq hr s
  rw [interface_of_steps hkind hid hvalid (mapM_typeText_run hq _ _ hconstraints s') hends
    (hmethods _), writtenTypes, hid, List.flatMap_append, q.after_append, List.flatMap_map]
  simp only [← flatMap_allMethods, List.flatMap_assoc]
  rfl

end Extract

end Understudy
