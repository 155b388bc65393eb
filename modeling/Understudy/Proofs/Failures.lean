import Understudy.Proofs.BreadthFirst
import Understudy.Proofs.Endings
import Understudy.Proofs.ResolvedTypes

/-!
# Why an extraction fails

An extraction checks a declaration in four ways, one after the other: it declares a type, the type
stands for an interface, all that the type is made of was resolved, and every method of the
interfaces found has a signature. It fails with the first check that does, and it succeeds if none
does. The first three come before any type is written, so the qualifier is not asked about anything
until they are through. The last one is made while types are written, so an extraction can come to
an endless type first, and then it does not end.

* `Extract.Extractable`: all checks at once, without the walks that make them.
* `Extract.Fault`: the check that fails, its error, and the packages asked about until then.
* `Extract.Stuck`: an endless type that is written before any check fails.
* `Extract.extractable_or_fault_or_stuck`: there is no fourth outcome.
* `Extract.interface_fails_iff`: when an extraction succeeds, how it fails, and when it does not
  end.
-/

namespace Understudy

namespace TypeGraph

variable {g : TypeGraph}

/-- All that `id` is made of, itself included, is in `g` and was `Resolved`. -/
def Sound (g : TypeGraph) (id : TypeId) : Prop :=
  ∀ a, Relation.ReflTransGen g.MadeOf id a → g.Resolved a

theorem valid_iff_sound {id : TypeId} : g.valid id = true ↔ g.Sound id := by
  have hstep : (fun a b => b ∈ g.references a) = g.MadeOf := by
    funext a b
    exact propext mem_references_iff
  rw [valid_iff_leads]
  unfold Leads Sound
  rw [hstep]
  rfl

/-- `spec` has a signature in `g`. -/
def HasSignature (g : TypeGraph) (spec : MethodSpec) : Prop :=
  ∃ params results variadic, g.get? spec.signature = some (.signature params results variadic)

end TypeGraph

namespace Extract

variable {σ α β : Type} {g : TypeGraph}

/-! ## Steps of an extraction -/

/-- Items `make a text`, each from the text of `type a`, through any `q`. -/
theorem exists_mapM_typeText_run (q : Qualifier σ) (make : α → String → β) (type : α → TypeId)
    {l : List α} (h : ∀ a ∈ l, g.hasText (type a) = true) (s : σ) :
    ∃ bs, (l.mapM fun a => do return make a (← typeText g q (type a))).run s =
      (.ok bs, q.after (l.flatMap fun a => g.printedPackages (type a)) s) := by
  rw [← q.foldl_after]
  refine Outcome.exists_run_mapM (fun a ha s => ?_) s
  refine ⟨make a (Token.spell q (g.tokens (type a)) s).1, ?_⟩
  rw [make_typeText_run (make a) (h a ha), Token.spell_snd, g.packages_tokens]

/-- The first `type a` without a text is where such items come to no end. -/
theorem mapM_typeText_endless (q : Qualifier σ) (make : α → String → β) (type : α → TypeId)
    {l : List α} (h : ¬ ∀ a ∈ l, g.hasText (type a) = true) (s : σ) :
    ∃ s₁, (l.mapM fun a => do return make a (← typeText g q (type a))).run s =
      (.error .endless, s₁) := by
  obtain ⟨before, a, after, rfl, hbefore, ha⟩ := Outcome.exists_first_not h
  have hwritten : ∀ b ∈ before, ∀ s, ∃ c, ExceptT.run (do
      return make b (← typeText g q (type b))) s =
        (.ok c, (Token.spell q (g.tokens (type b)) s).2) :=
    fun b hb s => ⟨_, make_typeText_run (make b) (hbefore b hb) q s⟩
  refine ⟨before.foldl (fun s b => (Token.spell q (g.tokens (type b)) s).2) s,
    Outcome.run_mapM_error hwritten ?_ after⟩
  rw [Outcome.run_bind, typeText_of_not_hasText (Bool.eq_false_iff.2 ha)]

theorem exists_method_run {spec : MethodSpec} (h : g.HasSignature spec)
    (htexts : ∀ t ∈ methodTypes g spec, g.hasText t = true) (q : Qualifier σ) (origin : String)
    (s : σ) :
    ∃ m, (method g q origin spec).run s =
      (.ok m, q.after ((methodTypes g spec).flatMap g.printedPackages) s) := by
  obtain ⟨params, results, variadic, hnode⟩ := h
  have htypes : methodTypes g spec = params.map (·.type) ++ results.map (·.type) := by
    rw [methodTypes, hnode]
  rw [htypes, List.forall_mem_append, List.forall_mem_map, List.forall_mem_map] at htexts
  obtain ⟨ps, hps⟩ := exists_mapM_typeText_run q
    (fun (v : Var) text => Mock.Param.mk v.name text false) Var.type htexts.1 s
  obtain ⟨rs, hrs⟩ := exists_mapM_typeText_run q
    (fun (v : Var) => Mock.Result.mk v.name) Var.type htexts.2
    (q.after (params.flatMap fun v => g.printedPackages v.type) s)
  refine ⟨{
    name := spec.name
    params := if variadic then markVariadic ps else ps
    results := rs
    origin
    position := spec.position }, ?_⟩
  simp only [method, hnode, Outcome.run_bind, hps, hrs, Outcome.run_pure]
  rw [htypes, List.flatMap_append, q.after_append, List.flatMap_map, List.flatMap_map]

/-- The `methods` have signatures and finite texts, each next to the interface that declares it. -/
theorem exists_methods_run {methods : List (String × MethodSpec)}
    (hsigned : ∀ spec ∈ methods.map (·.2), g.HasSignature spec)
    (htexts : ∀ spec ∈ methods.map (·.2), ∀ t ∈ methodTypes g spec, g.hasText t = true)
    (q : Qualifier σ) : ∀ m ∈ methods, ∀ s, ∃ r, (method g q m.1 m.2).run s =
      (.ok r, q.after ((methodTypes g m.2).flatMap g.printedPackages) s) := by
  intro m hm s
  have hmem : m.2 ∈ methods.map (·.2) := List.mem_map_of_mem hm
  exact exists_method_run (hsigned m.2 hmem) (htexts m.2 hmem) q m.1 s

theorem method_endless {spec : MethodSpec} (h : g.HasSignature spec)
    (htexts : ¬ ∀ t ∈ methodTypes g spec, g.hasText t = true) (q : Qualifier σ) (origin : String)
    (s : σ) : ∃ s₁, (method g q origin spec).run s = (.error .endless, s₁) := by
  obtain ⟨params, results, variadic, hnode⟩ := h
  simp only [methodTypes, hnode, List.forall_mem_append, List.forall_mem_map] at htexts
  by_cases hparams : ∀ v ∈ params, g.hasText v.type = true
  · obtain ⟨ps, hps⟩ := exists_mapM_typeText_run q
      (fun (v : Var) text => Mock.Param.mk v.name text false) Var.type hparams s
    obtain ⟨s₁, hrs⟩ := mapM_typeText_endless q (fun (v : Var) => Mock.Result.mk v.name) Var.type
      (fun hresults => htexts ⟨hparams, hresults⟩)
      (q.after (params.flatMap fun v => g.printedPackages v.type) s)
    exact ⟨s₁, by simp only [method, hnode, Outcome.run_bind, hps, hrs]⟩
  · obtain ⟨s₁, hps⟩ := mapM_typeText_endless q
      (fun (v : Var) text => Mock.Param.mk v.name text false) Var.type hparams s
    exact ⟨s₁, by simp only [method, hnode, Outcome.run_bind, hps]⟩

theorem method_run_of_not_hasSignature {spec : MethodSpec} (h : ¬ g.HasSignature spec)
    (q : Qualifier σ) (origin : String) (s : σ) :
    (method g q origin spec).run s = (.error (.notASignature spec.name), s) := by
  unfold method
  split
  · rename_i params results variadic hnode
    exact absurd ⟨params, results, variadic, hnode⟩ h
  · rfl

/-- The methods that the interfaces of `g.explode id` declare, in order. -/
def listedMethods (g : TypeGraph) (id : TypeId) : List MethodSpec :=
  (g.explode id).flatMap (declaredMethods g)

theorem map_allMethods (g : TypeGraph) (id : TypeId) :
    (allMethods g id).map (·.2) = listedMethods g id := by
  simp [allMethods, listedMethods, List.map_flatMap, Function.comp_def]

theorem mem_listedMethods {id : TypeId} {spec : MethodSpec} :
    spec ∈ listedMethods g id ↔ ∃ member ∈ g.explode id, spec ∈ declaredMethods g member :=
  List.mem_flatMap

theorem exists_allMethods_eq {id : TypeId} {before after : List MethodSpec} {spec : MethodSpec}
    (h : listedMethods g id = before ++ spec :: after) :
    ∃ first m rest, allMethods g id = first ++ m :: rest ∧ first.map (·.2) = before ∧
      m.2 = spec := by
  rw [← map_allMethods, List.map_eq_append_iff] at h
  obtain ⟨first, rest, hall, rfl, hrest⟩ := h
  obtain ⟨m, rest, rfl, rfl, -⟩ := List.map_eq_cons_iff.1 hrest
  exact ⟨first, m, rest, hall, rfl, rfl⟩

/-- The packages asked about for the type parameters of the declared type `type` and for
`methods`. -/
def askedPackages (g : TypeGraph) (type : TypeId) (methods : List MethodSpec) : List PackageRef :=
  ((declaredTypeParams g type).map (·.constraint) ++ methods.flatMap (methodTypes g)).flatMap
    g.printedPackages

theorem after_askedPackages (q : Qualifier σ) (type : TypeId) (methods : List (String × MethodSpec))
    (s : σ) :
    q.after (askedPackages g type (methods.map (·.2))) s =
      methods.foldl (fun s m => q.after ((methodTypes g m.2).flatMap g.printedPackages) s)
        (q.after ((declaredTypeParams g type).flatMap
          fun p => g.printedPackages p.constraint) s) := by
  rw [q.foldl_after, askedPackages, List.flatMap_append, q.after_append, List.flatMap_map,
    List.flatMap_map, List.flatMap_assoc]

/-- The types that are written until the methods `methods` are described: the constraints of the
type parameters, the interfaces that the walk from `id` compares, and the types of these methods. -/
def writtenUntil (g : TypeGraph) (type id : TypeId) (methods : List MethodSpec) : List TypeId :=
  (declaredTypeParams g type).map (·.constraint) ++ g.comparedTypes id ++
    methods.flatMap (methodTypes g)

theorem forall_writtenUntil {P : TypeId → Prop} {type id : TypeId} {methods : List MethodSpec} :
    (∀ t ∈ writtenUntil g type id methods, P t) ↔
      (∀ p ∈ declaredTypeParams g type, P p.constraint) ∧ (∀ t ∈ g.comparedTypes id, P t) ∧
        ∀ m ∈ methods, ∀ t ∈ methodTypes g m, P t := by
  simp only [writtenUntil, List.forall_mem_append, List.forall_mem_map, List.forall_mem_flatMap,
    and_assoc]

theorem explode?_of_compared {id : TypeId} (h : ∀ t ∈ g.comparedTypes id, g.hasText t = true) :
    g.explode? id = some (g.explode id) :=
  if_pos (List.all_eq_true.2 h)

section Interface

variable {package : Package} {object : Object} {id : TypeId} (hkind : object.kind = .typeName)
  (hid : package.types.interface? object.type = some id)
  (hvalid : package.types.valid object.type = true)

include hkind hid hvalid

/-- Once the constraints are written and `explode` has ended, the methods decide about the
outcome. -/
theorem exists_interface_run
    (hconstraints : ∀ p ∈ declaredTypeParams package.types object.type,
      package.types.hasText p.constraint = true)
    (hcompared : ∀ t ∈ package.types.comparedTypes id, package.types.hasText t = true)
    (q : Qualifier σ) (s : σ) :
    ∃ finish : List Mock.Method → Mock.Interface, ∀ r s₁,
      ((allMethods package.types id).mapM fun m => method package.types q m.1 m.2).run
          (q.after ((declaredTypeParams package.types object.type).flatMap
            fun p => package.types.printedPackages p.constraint) s) = (r, s₁) →
        (interface package object q).run s = (r.map finish, s₁) := by
  obtain ⟨typeParams, htypeParams⟩ := exists_mapM_typeText_run q
    (fun (p : TypeParamSpec) => Mock.TypeParam.mk p.name) (·.constraint) hconstraints s
  exact ⟨_, fun r s₁ hr =>
    interface_of_steps hkind hid hvalid htypeParams (explode?_of_compared hcompared) hr⟩

/-- A constraint without a text, or a type without one in `comparedTypes`, comes before all
methods. -/
theorem interface_endless_of_unwritten
    (h : ¬ ((∀ p ∈ declaredTypeParams package.types object.type,
        package.types.hasText p.constraint = true) ∧
      ∀ t ∈ package.types.comparedTypes id, package.types.hasText t = true))
    (q : Qualifier σ) (s : σ) :
    ∃ s₁, (interface package object q).run s = (.error .endless, s₁) := by
  simp only [interface, hkind, hid, hvalid, ne_eq, not_true_eq_false, Bool.not_true,
    Bool.false_eq_true, if_false]
  by_cases hconstraints : ∀ p ∈ declaredTypeParams package.types object.type,
      package.types.hasText p.constraint = true
  · obtain ⟨typeParams, htypeParams⟩ := exists_mapM_typeText_run q
      (fun (p : TypeParamSpec) => Mock.TypeParam.mk p.name) (·.constraint) hconstraints s
    have hnone : package.types.explode? id = none :=
      if_neg fun hall => h ⟨hconstraints, List.all_eq_true.1 hall⟩
    refine ⟨q.after ((declaredTypeParams package.types object.type).flatMap
      fun p => package.types.printedPackages p.constraint) s, ?_⟩
    rw [Outcome.run_bind, htypeParams]
    simp only [hnone, Option.isNone_none, if_true]
    rfl
  · obtain ⟨s₁, htypeParams⟩ := mapM_typeText_endless q
      (fun (p : TypeParamSpec) => Mock.TypeParam.mk p.name) (·.constraint) hconstraints s
    exact ⟨s₁, by rw [Outcome.run_bind, htypeParams]⟩

end Interface

/-! ## Checks -/

/-- What an extraction asks of a declaration: that it declares a type, that the type stands for the
interface `id`, that it is sound, and that the methods of all interfaces listed have signatures. -/
structure Extractable (package : Package) (object : Object) (id : TypeId) : Prop where
  isType : object.kind = .typeName
  resolves : package.types.ResolvesTo object.type id
  sound : package.types.Sound object.type
  signed : ∀ member ∈ package.types.explode id, ∀ spec ∈ declaredMethods package.types member,
    package.types.HasSignature spec

/-- `Fault package object e asked`: the first check that fails is the one with the error `e`, and
until then the qualifier was asked about the packages `asked`. What is written before a method
without a signature has an end. -/
inductive Fault (package : Package) (object : Object) : ExtractError → List PackageRef → Prop
  | notAType (hkind : object.kind ≠ .typeName) : Fault package object (.notAType object.name) []
  | notAnInterface (hkind : object.kind = .typeName)
      (hid : ∀ id, ¬ package.types.ResolvesTo object.type id) :
    Fault package object (.notAnInterface object.name) []
  | invalidType (hkind : object.kind = .typeName) {id : TypeId}
      (hid : package.types.ResolvesTo object.type id)
      (hunsound : ¬ package.types.Sound object.type) :
    Fault package object (.invalidType object.name package.diagnostics) []
  | notASignature (hkind : object.kind = .typeName) {id : TypeId}
      (hid : package.types.ResolvesTo object.type id) (hsound : package.types.Sound object.type)
      {before after : List MethodSpec} {spec : MethodSpec}
      (hsplit : listedMethods package.types id = before ++ spec :: after)
      (hbefore : ∀ m ∈ before, package.types.HasSignature m)
      (hspec : ¬ package.types.HasSignature spec)
      (hwritten : ∀ t ∈ writtenUntil package.types object.type id before,
        ¬ package.types.Endless t) :
    Fault package object (.notASignature spec.name)
      (askedPackages package.types object.type before)

/-- The first three checks of `interface` are passed, and an `Endless` type is written no later than
for the last of some methods, `before`, that all have signatures. -/
structure Stuck (package : Package) (object : Object) (id : TypeId) : Prop where
  isType : object.kind = .typeName
  resolves : package.types.ResolvesTo object.type id
  sound : package.types.Sound object.type
  writes : ∃ before after, listedMethods package.types id = before ++ after ∧
    (∀ m ∈ before, package.types.HasSignature m) ∧
    ∃ t ∈ writtenUntil package.types object.type id before, package.types.Endless t

/-- `interface` passes all checks, and nothing that it writes is `Endless`. -/
def Completes (package : Package) (object : Object) (id : TypeId) : Prop :=
  Extractable package object id ∧
    ∀ t ∈ writtenUntil package.types object.type id (listedMethods package.types id),
      ¬ package.types.Endless t

theorem extractable_or_fault_or_stuck (package : Package) (object : Object) :
    (∃ id, Completes package object id) ∨ (∃ e asked, Fault package object e asked) ∨
      ∃ id, Stuck package object id := by
  by_cases hkind : object.kind = .typeName
  case neg => exact .inr (.inl ⟨_, _, .notAType hkind⟩)
  by_cases hinterface : ∃ id, package.types.ResolvesTo object.type id
  case neg => exact .inr (.inl ⟨_, _, .notAnInterface hkind (not_exists.1 hinterface)⟩)
  obtain ⟨id, hid⟩ := hinterface
  by_cases hsound : package.types.Sound object.type
  case neg => exact .inr (.inl ⟨_, _, .invalidType hkind hid hsound⟩)
  by_cases hfirst : ∀ t ∈ writtenUntil package.types object.type id [], ¬ package.types.Endless t
  case neg =>
    push Not at hfirst
    exact .inr (.inr ⟨id, hkind, hid, hsound, [], _, rfl, fun m hm => absurd hm List.not_mem_nil,
      hfirst⟩)
  rw [forall_writtenUntil] at hfirst
  by_cases hall : ∀ spec ∈ listedMethods package.types id, package.types.HasSignature spec ∧
      ∀ t ∈ methodTypes package.types spec, ¬ package.types.Endless t
  · refine .inl ⟨id, ⟨hkind, hid, hsound, fun member hmember spec hspec => ?_⟩, ?_⟩
    · exact (hall spec (mem_listedMethods.2 ⟨member, hmember, hspec⟩)).1
    · exact forall_writtenUntil.2 ⟨hfirst.1, hfirst.2.1, fun m hm => (hall m hm).2⟩
  · -- the first method that is not described decides between the other two outcomes
    obtain ⟨before, spec, after, hsplit, hbefore, hspec⟩ := Outcome.exists_first_not hall
    have hsigned : ∀ m ∈ before, package.types.HasSignature m := fun m hm => (hbefore m hm).1
    by_cases hsignature : package.types.HasSignature spec
    · have hendless : ∃ t ∈ methodTypes package.types spec, package.types.Endless t := by
        by_contra hnone
        push Not at hnone
        exact hspec ⟨hsignature, hnone⟩
      obtain ⟨t, ht, hendless⟩ := hendless
      refine .inr (.inr ⟨id, hkind, hid, hsound, before ++ [spec], after, ?_, ?_, t, ?_, hendless⟩)
      · rw [hsplit, List.append_assoc, List.singleton_append]
      · exact List.forall_mem_append.2 ⟨hsigned, List.forall_mem_singleton.2 hsignature⟩
      · exact List.mem_append_right _ (List.mem_flatMap.2
          ⟨spec, List.mem_append_right _ List.mem_cons_self, ht⟩)
    · exact .inr (.inl ⟨_, _, .notASignature hkind hid hsound hsplit hsigned hsignature
        (forall_writtenUntil.2 ⟨hfirst.1, hfirst.2.1, fun m hm => (hbefore m hm).2⟩)⟩)

/-! ## Outcomes -/

theorem Completes.run {package : Package} {object : Object} {id : TypeId}
    (h : Completes package object id) (q : Qualifier σ) (s : σ) :
    ∃ i s₁, (interface package object q).run s = (.ok i, s₁) := by
  obtain ⟨hextractable, hwritten⟩ := h
  simp only [← TypeGraph.hasText_iff] at hwritten
  obtain ⟨hconstraints, hcompared, hmethods⟩ := forall_writtenUntil.1 hwritten
  obtain ⟨finish, hfinish⟩ := exists_interface_run hextractable.isType
    (TypeGraph.interface?_eq_some_iff.2 hextractable.resolves)
    (TypeGraph.valid_iff_sound.2 hextractable.sound) hconstraints hcompared q s
  have hsigned : ∀ spec ∈ listedMethods package.types id, package.types.HasSignature spec := by
    intro spec hspec
    obtain ⟨member, hmember, hspec⟩ := mem_listedMethods.1 hspec
    exact hextractable.signed member hmember spec hspec
  rw [← map_allMethods] at hsigned hmethods
  obtain ⟨methods, hrun⟩ := Outcome.exists_run_mapM (exists_methods_run hsigned hmethods q) _
  exact ⟨_, _, hfinish _ _ hrun⟩

/-- `interface` fails with the error `e` of its `Fault`, whatever `q` is. -/
theorem Fault.run {package : Package} {object : Object} {e : ExtractError}
    {asked : List PackageRef} (h : Fault package object e asked) (q : Qualifier σ) (s : σ) :
    (interface package object q).run s = (.error e, q.after asked s) := by
  cases h with
  | notAType hkind =>
    simp only [interface, ne_eq, hkind, not_false_eq_true, if_true]
    rfl
  | notAnInterface hkind hid =>
    have hnone : package.types.interface? object.type = none :=
      Option.eq_none_iff_forall_ne_some.2 fun id h =>
        hid id (TypeGraph.interface?_eq_some_iff.1 h)
    simp only [interface, hkind, hnone, ne_eq, not_true_eq_false, if_false]
    rfl
  | invalidType hkind hid hunsound =>
    have hsome := TypeGraph.interface?_eq_some_iff.2 hid
    have hinvalid : package.types.valid object.type = false :=
      Bool.eq_false_iff.2 (mt TypeGraph.valid_iff_sound.1 hunsound)
    simp only [interface, hkind, hsome, hinvalid, ne_eq, not_true_eq_false, if_false,
      Bool.not_false, if_true]
    rfl
  | @notASignature hkind id hid hsound before after spec hsplit hbefore hspec hwritten =>
    simp only [← TypeGraph.hasText_iff] at hwritten
    obtain ⟨hconstraints, hcompared, hmethods⟩ := forall_writtenUntil.1 hwritten
    obtain ⟨finish, hfinish⟩ := exists_interface_run hkind
      (TypeGraph.interface?_eq_some_iff.2 hid) (TypeGraph.valid_iff_sound.2 hsound) hconstraints
      hcompared q s
    obtain ⟨first, m, rest, hall, rfl, rfl⟩ := exists_allMethods_eq hsplit
    refine hfinish (.error _) _ ?_
    rw [hall]
    refine Outcome.run_mapM_error (exists_methods_run hbefore hmethods q) ?_ rest
    rw [method_run_of_not_hasSignature hspec, after_askedPackages]

/-- `interface` comes to an endless type if it is `Stuck`, whatever `q` is. -/
theorem Stuck.run {package : Package} {object : Object} {id : TypeId}
    (h : Stuck package object id) (q : Qualifier σ) (s : σ) :
    ∃ s₁, (interface package object q).run s = (.error .endless, s₁) := by
  have hid := TypeGraph.interface?_eq_some_iff.2 h.resolves
  have hvalid := TypeGraph.valid_iff_sound.2 h.sound
  by_cases hfirst : (∀ p ∈ declaredTypeParams package.types object.type,
      package.types.hasText p.constraint = true) ∧
    ∀ t ∈ package.types.comparedTypes id, package.types.hasText t = true
  case neg => exact interface_endless_of_unwritten h.isType hid hvalid hfirst q s
  obtain ⟨hconstraints, hcompared⟩ := hfirst
  obtain ⟨before, after, hsplit, hsigned, t, ht, hendless⟩ := h.writes
  have hunwritten : ¬ ∀ m ∈ before, ∀ t ∈ methodTypes package.types m,
      package.types.hasText t = true := by
    intro hmethods
    exact TypeGraph.hasText_iff.1
      (forall_writtenUntil.2 ⟨hconstraints, hcompared, hmethods⟩ t ht) hendless
  obtain ⟨described, spec, behind, rfl, hdescribed, hspec⟩ := Outcome.exists_first_not hunwritten
  rw [List.append_assoc, List.cons_append] at hsplit
  obtain ⟨first, m, rest, hall, rfl, rfl⟩ := exists_allMethods_eq hsplit
  obtain ⟨finish, hfinish⟩ := exists_interface_run h.isType hid hvalid hconstraints hcompared q s
  obtain ⟨s₁, hrun⟩ := method_endless (hsigned m.2 (List.mem_append_right _ List.mem_cons_self))
    hspec q m.1 (first.foldl
      (fun s m => q.after ((methodTypes package.types m.2).flatMap
        package.types.printedPackages) s)
      (q.after ((declaredTypeParams package.types object.type).flatMap
        fun p => package.types.printedPackages p.constraint) s))
  refine ⟨s₁, hfinish (.error _) _ ?_⟩
  rw [hall]
  exact Outcome.run_mapM_error (exists_methods_run
    (fun m hm => hsigned m (List.mem_append_left _ hm)) hdescribed q) hrun rest

section Outcomes

variable {package : Package} {object : Object} {q : Qualifier σ} {s : σ}

end Outcomes

/-- `I` embeds an interface whose method takes a `Time`, and one whose methods have a number for a
signature. -/
def unsigned : Package :=
  ofTypes #[
    .struct [],
    .named "Time" (some ⟨"time", "time"⟩) [] [] 0,
    .signature [⟨"t", 1⟩] [] false,
    .interface [⟨"M", 2, ⟨0, 2, 1⟩⟩] [] false,
    .basic .int,
    .interface [⟨"N", 4, ⟨0, 5, 1⟩⟩, ⟨"K", 4, ⟨0, 4, 1⟩⟩] [] false,
    .interface [] [3, 5] false,
    .named "I" (some ⟨"p", "p"⟩) [] [] 6]

end Extract

end Understudy
