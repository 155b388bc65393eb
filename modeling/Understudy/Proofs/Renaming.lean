import Understudy.Proofs.Levels
import Understudy.Proofs.Methods
import Understudy.Proofs.Shape
import Understudy.Proofs.Spelling

/-!
# The names of parameters

Packages that differ only in how parameters and results are called embed the same interfaces with
the same methods. The names still play a part: they are in the texts that the walk goes by, and
those inside the types of parameters are in the signatures that tell methods apart. The first does
no harm where texts decide what interfaces declare and embed, so there it is all a matter of which
methods are written alike.

* `Package.Renamed`: two packages that differ only in the names of parameters and results.
* `Extract.methodNames_eq`: the names of the methods, in terms of written signatures.
* `Extract.KeepsAlike`: a renaming after which methods written alike are still written alike.
* `Extract.methodNames_renamed_iff`: when a renaming keeps the names of the methods. It does if it
  leaves alone what is written inside the types of parameters and results.
-/

namespace Understudy

/-! ## Renaming -/

namespace TypeNode

/-- The node without the names of parameters and results, if it is a `signature`. -/
def unnamed : TypeNode → TypeNode
  | .signature params results variadic =>
    .signature (params.map fun v => { v with name := "" })
      (results.map fun v => { v with name := "" }) variadic
  | node => node

/-- The methods that an `interface` declares. -/
def methods? : TypeNode → Option (List MethodSpec)
  | .interface methods _ _ => some methods
  | _ => none

/-- The types of the parameters and results of a `signature`, and whether the last parameter takes
the remaining arguments. -/
def slots? : TypeNode → Option (List TypeId × List TypeId × Bool)
  | .signature params results variadic =>
    some (params.map (·.type), results.map (·.type), variadic)
  | _ => none

theorem slots?_unnamed (node : TypeNode) : node.unnamed.slots? = node.slots? := by
  cases node <;> simp [unnamed, slots?, Function.comp_def]

end TypeNode

/-- `g'` is `g` with other names for the parameters and results of signatures. -/
def TypeGraph.Renamed (g g' : TypeGraph) : Prop :=
  g'.nodes.map TypeNode.unnamed = g.nodes.map TypeNode.unnamed

/-- `p'` is `p` with other names for the parameters and results of signatures. -/
def Package.Renamed (p p' : Package) : Prop :=
  p.types.Renamed p'.types ∧ { p' with types := p.types } = p

namespace TypeGraph.Renamed

variable {g g' : TypeGraph}

theorem size_eq (h : g.Renamed g') : g'.size = g.size := by
  have hsize := congrArg Array.size h
  rwa [Array.size_map, Array.size_map] at hsize

/-- What `f` reads off a node without its names is the same in `g` and `g'`. -/
theorem bind_eq {α : Type} (h : g.Renamed g') {f : TypeNode → Option α}
    (hf : ∀ node, f node.unnamed = f node) (id : TypeId) :
    (g'.get? id).bind f = (g.get? id).bind f := by
  have hunnamed : ∀ k : TypeGraph,
      (k.get? id).bind f = ((k.nodes.map TypeNode.unnamed)[id.toNat]?).bind f := by
    intro k
    rw [Array.getElem?_map, get?]
    cases k.nodes[id.toNat]? with
    | none => rfl
    | some node => exact (hf node).symm
  rw [hunnamed, hunnamed, h]

theorem sameShape (h : g.Renamed g') : SameShape id g g' where
  size_eq := h.size_eq
  aliased?_eq a := by
    have haliased := h.bind_eq (f := fun node => some node.aliased?)
      (fun node => by cases node <;> rfl) a
    simpa [Option.map_eq_bind, Function.comp_def] using haliased
  embeddeds?_eq a := by
    rw [List.map_id_fun, Option.map_id_fun]
    exact h.bind_eq (fun node => by cases node <;> rfl) a

theorem embedded_eq (h : g.Renamed g') : g'.embedded = g.embedded := by
  funext a
  exact (h.sameShape.embedded_eq a).trans (List.map_id _)

theorem interface?_eq (h : g.Renamed g') (a : TypeId) : g'.interface? a = g.interface? a := by
  have hinterface := h.sameShape.interface?_eq a
  rwa [Option.map_id_fun] at hinterface

theorem levels_eq (h : g.Renamed g') (n : Nat) (ids : List TypeId) :
    g'.levels n ids = g.levels n ids := by
  induction n generalizing ids with
  | zero => rfl
  | succ n ih => rw [levels, levels, h.embedded_eq, ih]

theorem reaches_eq (h : g.Renamed g') : g'.Reaches = g.Reaches := by
  unfold Reaches
  rw [h.embedded_eq]

end TypeGraph.Renamed

/-- The names of the methods of `i`, in order. -/
def Mock.Interface.methodNames (i : Mock.Interface) : List String :=
  i.methods.map (·.name)

namespace Extract

open TypeGraph (Renamed)

variable {σ : Type} {g g' : TypeGraph} {q : Qualifier σ} {answer : PackageRef → String}

theorem declaredMethods_eq (g : TypeGraph) (id : TypeId) :
    declaredMethods g id = ((g.get? id).bind TypeNode.methods?).getD [] := by
  unfold declaredMethods
  cases g.get? id with
  | none => rfl
  | some node => cases node <;> rfl

theorem declaredMethods_renamed (h : Renamed g g') : declaredMethods g' = declaredMethods g := by
  funext a
  rw [declaredMethods_eq, declaredMethods_eq, h.bind_eq fun node => by cases node <;> rfl]

/-! ## Signatures without names -/

/-- The types of parameters, with a mark on the last if it is `variadic` and takes the remaining
arguments. -/
def marked (variadic : Bool) : List String → List (String × Bool)
  | [] => []
  | [t] => [(t, variadic)]
  | t :: ts => (t, false) :: marked variadic ts

theorem map_markVariadic (ps : Mock.Params) (h : ∀ p ∈ ps, p.variadic = false) :
    (markVariadic ps).map (fun p => (p.type, p.variadic)) = marked true (ps.map (·.type)) := by
  fun_induction markVariadic ps with
  | case1 => rfl
  | case2 p => rfl
  | case3 p ps hps ih =>
    obtain ⟨p', ps, rfl⟩ := List.exists_cons_of_ne_nil hps
    rw [List.map_cons, ih fun p hp => h p (List.mem_cons_of_mem _ hp),
      h p List.mem_cons_self]
    rfl

theorem marked_false (ts : List String) : marked false ts = ts.map (·, false) := by
  fun_induction marked false ts <;> simp_all

theorem methodTypes_eq (g : TypeGraph) (spec : MethodSpec) :
    methodTypes g spec = (((g.get? spec.signature).bind TypeNode.slots?).map
      fun slots => slots.1 ++ slots.2.1).getD [] := by
  unfold methodTypes
  cases g.get? spec.signature with
  | none => rfl
  | some node => cases node <;> rfl

/-- The signature `written` for `spec` has no names of parameters but those inside types. -/
theorem written_eq (g : TypeGraph) (answer : PackageRef → String) (spec : MethodSpec) :
    written g answer spec =
      if (methodTypes g spec).all g.hasText then
        ((g.get? spec.signature).bind TypeNode.slots?).map fun slots =>
          (spec.name, marked slots.2.2 (slots.1.map (g.textWith answer)),
            slots.2.1.map (g.textWith answer))
      else none := by
  unfold written rendering
  cases g.get? spec.signature with
  | none => exact (ite_self none).symm
  | some node =>
    cases (methodTypes g spec).all g.hasText with
    | false => cases node <;> rfl
    | true =>
      cases node with
      | signature params results variadic =>
        cases variadic with
        | false =>
          simp [TypeNode.slots?, Mock.Method.signature, marked_false, Function.comp_def]
        | true =>
          simp [TypeNode.slots?, Mock.Method.signature, map_markVariadic, Function.comp_def]
      | _ => rfl

/-- `spec` is `written` as before if nothing inside the types of its parameters and results is
renamed. -/
theorem written_renamed (h : Renamed g g') {spec : MethodSpec}
    (hagree : ∀ t ∈ methodTypes g spec, g.AgreeInside g' t) :
    written g' answer spec = written g answer spec := by
  have htypes : methodTypes g' spec = methodTypes g spec := by
    rw [methodTypes_eq, methodTypes_eq, h.bind_eq TypeNode.slots?_unnamed]
  have htexts : (methodTypes g spec).all g'.hasText = (methodTypes g spec).all g.hasText :=
    TypeGraph.all_hasText_congr fun t ht => (hagree t ht).hasText_eq h.size_eq
  rw [written_eq, written_eq, htypes, htexts, h.bind_eq TypeNode.slots?_unnamed]
  rw [methodTypes_eq] at hagree
  cases hslots : (g.get? spec.signature).bind TypeNode.slots? with
  | none => rw [Option.map_none, Option.map_none]
  | some slots =>
    rw [hslots, Option.map_some, Option.getD_some] at hagree
    have htext : ∀ t ∈ slots.1 ++ slots.2.1, g'.textWith answer t = g.textWith answer t :=
      fun t ht => (hagree t ht).textWith_eq h.size_eq answer
    have hparams : slots.1.map (g'.textWith answer) = slots.1.map (g.textWith answer) :=
      List.map_congr_left fun t ht => htext t (List.mem_append_left _ ht)
    have hresults : slots.2.1.map (g'.textWith answer) = slots.2.1.map (g.textWith answer) :=
      List.map_congr_left fun t ht => htext t (List.mem_append_right _ ht)
    rw [Option.map_some, Option.map_some, hparams, hresults]

/-! ## Names of methods -/

/-- The names of `specs` in the order of their positions. -/
def arrangedNames (specs : List MethodSpec) : List String :=
  (specs.mergeSort fun m n => m.position.le n.position).map (·.name)

/-- `mergeSort` looks at positions only, so names can be sorted with their positions. -/
theorem names_mergeSort {α : Type} (name : α → String) (position : α → Position) (l : List α) :
    (l.mergeSort fun a b => (position a).le (position b)).map name =
      ((l.map fun a => (name a, position a)).mergeSort fun a b => a.2.le b.2).map (·.1) := by
  have hpairs : (l.mergeSort fun a b => (position a).le (position b)).map
        (fun a => (name a, position a)) =
      (l.map fun a => (name a, position a)).mergeSort fun a b => a.2.le b.2 :=
    List.map_mergeSort fun _ _ _ _ => rfl
  rw [← hpairs, List.map_map]
  rfl

theorem length_arrangedNames (specs : List MethodSpec) :
    (arrangedNames specs).length = specs.length := by
  rw [arrangedNames, List.length_map, List.length_mergeSort]

theorem firsts_signature (met : List (String × List (String × Bool) × List String))
    (methods : List Mock.Method) :
    firsts Mock.Method.signature met methods =
      (Mock.Method.distinct methods).filter fun m => m.signature ∉ met := by
  induction methods generalizing met with
  | nil => rfl
  | cons m methods ih =>
    rw [firsts, Mock.Method.distinct, List.filter_cons, List.filter_filter, ih, ih]
    by_cases hm : m.signature ∈ met
    · -- methods with the signature of `m` are left out because of `met`
      rw [if_pos hm, if_neg (by simpa using hm)]
      refine List.filter_congr fun n _ => ?_
      by_cases hn : m.signature = n.signature <;> simp_all [Mock.Method.sameSignature]
    · rw [if_neg hm, if_pos (by simpa using hm)]
      congr 1
      refine List.filter_congr fun n _ => ?_
      simp [Mock.Method.sameSignature, Bool.and_comm, eq_comm]

/-- What the description `m` keeps of `spec`, the method that was declared. -/
structure Describes (g : TypeGraph) (answer : PackageRef → String) (spec : MethodSpec)
    (m : Mock.Method) : Prop where
  written_eq : written g answer spec = some m.signature
  name_eq : m.name = spec.name
  position_eq : m.position = spec.position

theorem describes_of_rendering {origin : String} {spec : MethodSpec} {m : Mock.Method}
    (h : rendering g answer origin spec = some m) : Describes g answer spec m := by
  have hwritten : written g answer spec = some m.signature := by
    rw [← map_signature_rendering g answer origin, h]
    rfl
  obtain ⟨params, results, variadic, -, -, rfl⟩ := rendering_eq_some h
  exact ⟨hwritten, rfl, rfl⟩

theorem describes_allMethods {id : TypeId} {methods : List Mock.Method}
    (h : List.Forall₂ (fun m r => rendering g answer m.1 m.2 = some r) (allMethods g id) methods) :
    List.Forall₂ (Describes g answer) ((g.explode id).flatMap (declaredMethods g)) methods := by
  have hspecs : (allMethods g id).map (·.2) = (g.explode id).flatMap (declaredMethods g) := by
    simp [allMethods, List.map_flatMap, Function.comp_def]
  rw [← hspecs, List.forall₂_map_left_iff]
  exact h.imp fun _ _ => describes_of_rendering

/-- Of methods with one signature the first is kept, among the descriptions `methods` as among the
declared `specs`. -/
theorem describes_distinct {specs : List MethodSpec} {methods : List Mock.Method}
    (h : List.Forall₂ (Describes g answer) specs methods) :
    List.Forall₂ (Describes g answer) (firsts (written g answer) [] specs)
      (Mock.Method.distinct methods) := by
  have hdistinct : Mock.Method.distinct methods = firsts Mock.Method.signature [] methods := by
    simp [firsts_signature]
  rw [hdistinct]
  refine firsts_forall₂ (fun a b c d hab hcd => ?_) (fun a b _ => by simp) h
  rw [hab.written_eq, hcd.written_eq, Option.some.injEq]

theorem names_of_describes {specs : List MethodSpec} {methods : List Mock.Method}
    (h : List.Forall₂ (Describes g answer) specs methods) :
    (methods.mergeSort fun m n => m.position.le n.position).map (·.name) =
      arrangedNames specs := by
  have hplaced : methods.map (fun m => (m.name, m.position)) =
      specs.map fun spec => (spec.name, spec.position) := by
    induction h with
    | nil => rfl
    | cons hdescribes _ ih =>
      rw [List.map_cons, List.map_cons, ih, hdescribes.name_eq, hdescribes.position_eq]
  rw [arrangedNames, names_mergeSort Mock.Method.name, hplaced, ← names_mergeSort]

/-- The methods that interfaces embedded in less than `n` steps declare. -/
def methodsWithin (g : TypeGraph) (n : Nat) (id : TypeId) : List MethodSpec :=
  (g.levels n [id]).flatMap (declaredMethods g)

/-- An interface that `id` embeds at some depth declares the method. -/
def EmbedsMethod (g : TypeGraph) (id : TypeId) (spec : MethodSpec) : Prop :=
  ∃ member, g.Reaches id member ∧ spec ∈ declaredMethods g member

/-- The text of an interface below `id` decides what it declares and embeds. -/
structure TextsDecide (g : TypeGraph) (answer : PackageRef → String) (id : TypeId) : Prop where
  methods : TextsDecideMethods g answer id
  embedded : g.TextsDecideEmbedded id

theorem embedsMethod_of_mem {n : Nat} {id : TypeId} {spec : MethodSpec}
    (h : spec ∈ methodsWithin g n id) : EmbedsMethod g id spec := by
  obtain ⟨member, hmember, hspec⟩ := List.mem_flatMap.1 h
  exact ⟨member, TypeGraph.reaches_of_mem_levels hmember, hspec⟩

theorem EmbedsMethod.exists_mem {id : TypeId} {spec : MethodSpec} (h : EmbedsMethod g id spec) :
    ∃ n, ∀ m, n ≤ m → spec ∈ methodsWithin g m id := by
  obtain ⟨member, hreach, hspec⟩ := h
  obtain ⟨n, hn⟩ := TypeGraph.exists_mem_levels hreach
  exact ⟨n, fun m hm => List.mem_flatMap.2
    ⟨member, TypeGraph.levels_mono hm (List.Subset.refl _) hn, hspec⟩⟩

/-- Where `TextsDecide` holds, `i.methodNames` are those of the first embedded method of each
`written` signature. What the walk passes over makes no difference. -/
theorem methodNames_eq (hq : q.Answers answer) {package : Package} {object : Object}
    {i : Mock.Interface} {s s₁ : σ} (h : (interface package object q).run s = (.ok i, s₁)) :
    ∃ id, package.types.interface? object.type = some id ∧
      (TextsDecide package.types answer id → ∃ n, ∀ m, n ≤ m → i.methodNames = arrangedNames
        (firsts (written package.types answer) [] (methodsWithin package.types m id))) := by
  obtain ⟨id, methods, -, hid, -, -, -, hrendered, rfl, -⟩ := interface_ok hq h
  refine ⟨id, hid, fun htexts => ⟨(package.types.explode id).length, fun m hm => ?_⟩⟩
  have hnames := names_of_describes (describes_distinct (describes_allMethods hrendered))
  rw [Mock.Interface.methodNames, hnames, htexts.embedded.explode_eq_firsts hm, methodsWithin]
  congr 1
  exact firsts_flatMap_firsts htexts.methods (fun a ha => TypeGraph.reaches_of_mem_levels ha)
    fun _ _ hmet => absurd hmet List.not_mem_nil

/-! ## Names of methods after a renaming -/

/-- Methods that are written alike in `g` are written alike in `g'`. -/
def KeepsAlike (g g' : TypeGraph) (answer : PackageRef → String) (id : TypeId) : Prop :=
  ∀ m n, EmbedsMethod g id m → EmbedsMethod g id n →
    written g answer m = written g answer n → written g' answer m = written g' answer n

theorem embedsMethod_renamed (h : Renamed g g') : EmbedsMethod g' = EmbedsMethod g := by
  unfold EmbedsMethod
  rw [h.reaches_eq, declaredMethods_renamed h]

theorem methodsWithin_renamed (h : Renamed g g') : methodsWithin g' = methodsWithin g := by
  funext n id
  rw [methodsWithin, methodsWithin, h.levels_eq, declaredMethods_renamed h]

theorem KeepsAlike.firsts_sublist {id : TypeId} (h : KeepsAlike g g' answer id) (n : Nat) :
    (firsts (written g' answer) [] (methodsWithin g n id)).Sublist
      (firsts (written g answer) [] (methodsWithin g n id)) :=
  Understudy.firsts_sublist
    (fun a ha b hb => h a b (embedsMethod_of_mem ha) (embedsMethod_of_mem hb))
    fun _ _ hmet => absurd hmet List.not_mem_nil

/-- If the same methods are `written` alike in `g` and `g'`, the same methods are kept. -/
theorem KeepsAlike.firsts_eq (hrenamed : Renamed g g') {id : TypeId}
    (h : KeepsAlike g g' answer id) (h' : KeepsAlike g' g answer id) (n : Nat) :
    firsts (written g answer) [] (methodsWithin g n id) =
      firsts (written g' answer) [] (methodsWithin g n id) := by
  have hsub := h'.firsts_sublist n
  rw [methodsWithin_renamed hrenamed] at hsub
  exact hsub.antisymm (h.firsts_sublist n)

/-- If `g'` keeps as many methods as `g`, no more methods are `written` alike than before. -/
theorem KeepsAlike.of_length_firsts (hrenamed : Renamed g g') {id : TypeId}
    (h : KeepsAlike g g' answer id) {n : Nat}
    (hlength : ∀ m, n ≤ m → (firsts (written g' answer) [] (methodsWithin g m id)).length =
      (firsts (written g answer) [] (methodsWithin g m id)).length) :
    KeepsAlike g' g answer id := by
  intro a b ha hb halike
  rw [embedsMethod_renamed hrenamed] at ha hb
  obtain ⟨k, hk⟩ := ha.exists_mem
  obtain ⟨k', hk'⟩ := hb.exists_mem
  -- deep enough for both methods
  have hle : n ≤ max n (max k k') ∧ k ≤ max n (max k k') ∧ k' ≤ max n (max k k') := by omega
  exact key_eq_of_length_firsts
    (fun c hc d hd => h c d (embedsMethod_of_mem hc) (embedsMethod_of_mem hd))
    (hlength _ hle.1) (hk _ hle.2.1) (hk' _ hle.2.2) halike

/-- Methods that are `written` as before are alike exactly as before. -/
theorem keepsAlike_of_written {id : TypeId}
    (h : ∀ spec, EmbedsMethod g id spec → written g' answer spec = written g answer spec) :
    KeepsAlike g g' answer id := by
  intro a b ha hb halike
  rw [h a ha, h b hb, halike]

/-- Where `TextsDecide` holds, renaming parameters and results keeps `methodNames` exactly if no
more methods are `written` alike in `p'` than in `p`, given that those written alike still are, by
`KeepsAlike`. It keeps them if nothing is renamed inside the types of parameters and results. -/
theorem methodNames_renamed_iff (hq : q.Answers answer) {p p' : Package} (hrenamed : p.Renamed p')
    {object : Object} {i i' : Mock.Interface} {s s₁ s' s₁' : σ}
    (h : (interface p object q).run s = (.ok i, s₁))
    (h' : (interface p' object q).run s' = (.ok i', s₁')) :
    ∃ id, p.types.interface? object.type = some id ∧
      (TextsDecide p.types answer id → TextsDecide p'.types answer id →
        (KeepsAlike p.types p'.types answer id →
          (i.methodNames = i'.methodNames ↔ KeepsAlike p'.types p.types answer id)) ∧
        ((∀ spec, EmbedsMethod p.types id spec → ∀ t ∈ methodTypes p.types spec,
            p.types.AgreeInside p'.types t) →
          i.methodNames = i'.methodNames)) := by
  obtain ⟨hgraph, -⟩ := hrenamed
  obtain ⟨id, hid, hnames⟩ := methodNames_eq hq h
  obtain ⟨id', hid', hnames'⟩ := methodNames_eq hq h'
  rw [hgraph.interface?_eq, hid] at hid'
  obtain rfl := Option.some.inj hid'
  refine ⟨id, hid, fun htexts htexts' => ?_⟩
  obtain ⟨n, hn⟩ := hnames htexts
  obtain ⟨n', hn'⟩ := hnames' htexts'
  rw [methodsWithin_renamed hgraph] at hn'
  have hsame : KeepsAlike p.types p'.types answer id → KeepsAlike p'.types p.types answer id →
      i.methodNames = i'.methodNames := by
    intro hkeeps hkeeps'
    rw [hn _ (Nat.le_max_left n n'), hn' _ (Nat.le_max_right n n'),
      hkeeps.firsts_eq hgraph hkeeps']
  refine ⟨fun hkeeps => ⟨fun heq => ?_, hsame hkeeps⟩, fun hagree => ?_⟩
  · refine hkeeps.of_length_firsts hgraph (n := max n n') fun m hm => ?_
    rw [← length_arrangedNames, ← length_arrangedNames, ← hn m (by omega), ← hn' m (by omega), heq]
  · have hwritten : ∀ spec, EmbedsMethod p.types id spec →
        written p'.types answer spec = written p.types answer spec :=
      fun spec hspec => written_renamed hgraph (hagree spec hspec)
    refine hsame (keepsAlike_of_written hwritten) (keepsAlike_of_written fun spec hspec => ?_)
    rw [embedsMethod_renamed hgraph] at hspec
    exact (hwritten spec hspec).symm

/-! ## Samples -/

/-- `I` embeds two interfaces that declare `M`, whose parameter is a function. The parameters of the
two `M` have the names `outer` and `outer'`, and those of the functions `inner` and `inner'`. -/
def embeds (outer outer' inner inner' : String) : Package :=
  ofTypes #[
    .basic .int,
    .signature [⟨inner, 0⟩] [] false,
    .signature [⟨inner', 0⟩] [] false,
    .signature [⟨outer, 1⟩] [] false,
    .signature [⟨outer', 2⟩] [] false,
    .interface [⟨"M", 3, ⟨0, 2, 1⟩⟩] [] false,
    .interface [⟨"M", 4, ⟨0, 3, 1⟩⟩] [] false,
    .interface [] [5, 6] false,
    .named "I" (some ⟨"p", "p"⟩) [] [] 7]

/-- `M` as it is described in such a package. -/
def described (outer inner : String) (line : UInt32) : Mock.Method where
  name := "M"
  params := [{ name := outer, type := "func(" ++ inner ++ " int)" }]
  results := []
  origin := "interface\x7bM(" ++ outer ++ " func(" ++ inner ++ " int))\x7d"
  position := ⟨0, line, 1⟩

theorem renamed_embeds (a b c d a' b' c' d' : String) :
    (embeds a b c d).Renamed (embeds a' b' c' d') := by
  refine ⟨?_, rfl⟩
  simp [TypeGraph.Renamed, embeds, ofTypes, TypeNode.unnamed]

theorem reaches_embeds {a b c d : String} {member : TypeId}
    (h : (embeds a b c d).types.Reaches 7 member) : member = 7 ∨ member = 5 ∨ member = 6 := by
  have hroot : (embeds a b c d).types.embedded 7 = [5, 6] := rfl
  have hleaf : ∀ e ∈ (embeds a b c d).types.embedded 7, (embeds a b c d).types.embedded e = [] := by
    simp only [hroot, List.mem_cons, List.not_mem_nil, or_false]
    rintro e (rfl | rfl) <;> rfl
  simpa [hroot] using h.eq_or_mem hleaf

/-- The names of the parameters of `M` itself are not in its signature. -/
theorem written_embeds {outer outer' : String} {spec : MethodSpec}
    (h : EmbedsMethod (embeds outer outer' "a" "a").types 7 spec) :
    written (embeds outer outer' "a" "a").types answer spec =
      some ("M", [("func(a int)", false)], []) := by
  have hfirst : declaredMethods (embeds outer outer' "a" "a").types 5 =
      [⟨"M", 3, ⟨0, 2, 1⟩⟩] := rfl
  have hsecond : declaredMethods (embeds outer outer' "a" "a").types 6 =
      [⟨"M", 4, ⟨0, 3, 1⟩⟩] := rfl
  obtain ⟨member, hreach, hspec⟩ := h
  rcases reaches_embeds hreach with rfl | rfl | rfl
  · cases hspec
  · rw [hfirst, List.mem_singleton] at hspec
    rw [hspec]
    rfl
  · rw [hsecond, List.mem_singleton] at hspec
    rw [hspec]
    rfl

/-- The two embedded interfaces may have the same text, but `I` has one of its own. -/
theorem textsDecide_embeds {outer outer' : String}
    (hfirst : (embeds outer outer' "a" "a").types.structuralText 7 ≠
      (embeds outer outer' "a" "a").types.structuralText 5)
    (hsecond : (embeds outer outer' "a" "a").types.structuralText 7 ≠
      (embeds outer outer' "a" "a").types.structuralText 6) :
    TextsDecide (embeds outer outer' "a" "a").types answer 7 where
  methods a b ha hb htext spec hspec := by
    have hwritten : written _ answer spec = _ := written_embeds ⟨a, ha, hspec⟩
    have hdeclared : ∃ spec', spec' ∈ declaredMethods (embeds outer outer' "a" "a").types b := by
      rcases reaches_embeds hb with rfl | rfl | rfl
      · rcases reaches_embeds ha with rfl | rfl | rfl
        · exact ⟨spec, hspec⟩
        · exact absurd htext.symm hfirst
        · exact absurd htext.symm hsecond
      · exact ⟨_, List.mem_cons_self⟩
      · exact ⟨_, List.mem_cons_self⟩
    obtain ⟨spec', hspec'⟩ := hdeclared
    exact ⟨spec', hspec', (written_embeds ⟨b, hb, hspec'⟩).trans hwritten.symm⟩
  embedded a b ha hb htext c hc := by
    rcases reaches_embeds ha with rfl | rfl | rfl
    · rcases reaches_embeds hb with rfl | rfl | rfl
      · exact ⟨c, hc, rfl⟩
      · exact absurd htext hfirst
      · exact absurd htext hsecond
    · cases hc
    · cases hc

theorem valid_embeds (outer outer' inner inner' : String) :
    (embeds outer outer' inner inner').types.valid 8 = true :=
  TypeGraph.valid_of_closed [0, 1, 2, 3, 4, 5, 6, 7, 8] rfl (by decide)

theorem interface_embeds_same :
    (interface (embeds "f" "f" "a" "a") (declarationOf 8) (ImportScope.mk "p" []).qualify).run [] =
      (.ok { name := "I", typeParams := [], methods := [described "f" "a" 2] }, []) :=
  interface_of_explode rfl rfl (valid_embeds "f" "f" "a" "a") (TypeGraph.explode_of_within 3 rfl)
    rfl rfl rfl (List.mergeSort_singleton _)

theorem interface_embeds_outer :
    (interface (embeds "f" "g" "a" "a") (declarationOf 8) (ImportScope.mk "p" []).qualify).run [] =
      (.ok { name := "I", typeParams := [], methods := [described "f" "a" 2] }, []) :=
  interface_of_explode rfl rfl (valid_embeds "f" "g" "a" "a") (TypeGraph.explode_of_within 3 rfl)
    rfl rfl rfl (List.mergeSort_singleton _)

/-- Two methods `M` whose own parameters have different names are one method, and stay one when the
names become the same. The walk lists both interfaces before and one of them after. -/
theorem methodNames_renamed_iff_outer :
    (embeds "f" "g" "a" "a").Renamed (embeds "f" "f" "a" "a") ∧
      ∃ i i',
        (interface (embeds "f" "g" "a" "a") (declarationOf 8)
          (ImportScope.mk "p" []).qualify).run [] = (.ok i, []) ∧
        (interface (embeds "f" "f" "a" "a") (declarationOf 8)
          (ImportScope.mk "p" []).qualify).run [] = (.ok i', []) ∧
        i.methodNames = i'.methodNames := by
  have hrenamed := renamed_embeds "f" "g" "a" "a" "f" "f" "a" "a"
  obtain ⟨id, hid, hiff⟩ := methodNames_renamed_iff (ImportScope.qualify_answers _) hrenamed
    interface_embeds_outer interface_embeds_same
  obtain rfl : 7 = id := Option.some.inj hid
  refine ⟨hrenamed, _, _, interface_embeds_outer, interface_embeds_same, ?_⟩
  have hnames := (hiff (textsDecide_embeds (by decide) (by decide))
    (textsDecide_embeds (by decide) (by decide))).1
  refine (hnames fun m n hm hn _ => ?_).2 fun m n hm hn _ => ?_
  · rw [← embedsMethod_renamed hrenamed.1] at hm hn
    rw [written_embeds hm, written_embeds hn]
  · rw [embedsMethod_renamed hrenamed.1] at hm hn
    rw [written_embeds hm, written_embeds hn]

theorem interface_embeds_inner :
    (interface (embeds "f" "f" "a" "b") (declarationOf 8) (ImportScope.mk "p" []).qualify).run [] =
      (.ok {
        name := "I"
        typeParams := []
        methods := [described "f" "a" 2, described "f" "b" 3] }, []) :=
  interface_of_explode rfl rfl (valid_embeds "f" "f" "a" "b") (TypeGraph.explode_of_within 3 rfl)
    rfl rfl rfl (List.mergeSort_of_pairwise (by decide))

/-- Two methods `M` that differ in nothing but the name of a parameter inside a function type are
both kept, and one of them is dropped when that name becomes the same. -/
theorem inner_names_split_methods :
    (embeds "f" "f" "a" "b").Renamed (embeds "f" "f" "a" "a") ∧
      ∃ i i',
        (interface (embeds "f" "f" "a" "b") (declarationOf 8)
          (ImportScope.mk "p" []).qualify).run [] = (.ok i, []) ∧
        (interface (embeds "f" "f" "a" "a") (declarationOf 8)
          (ImportScope.mk "p" []).qualify).run [] = (.ok i', []) ∧
        i.methodNames = ["M", "M"] ∧ i'.methodNames = ["M"] :=
  ⟨renamed_embeds _ _ _ _ _ _ _ _, _, _, interface_embeds_inner, interface_embeds_same, rfl, rfl⟩

end Extract

end Understudy
