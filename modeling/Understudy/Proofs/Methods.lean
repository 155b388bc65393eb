import Understudy.Proofs.Explosion
import Understudy.Proofs.UsedImports

/-!
# The methods of an extracted interface

An extraction describes the methods of the interfaces that the walk lists, and of those with one
signature it keeps one. A method is lost if only interfaces that the walk passes over declare it.

* `Extract.written`: the signature of a method as it is written out.
* `Extract.exists_method_iff`: the signatures of an extracted interface are those of its listed
  interfaces.
* `Extract.Lossless`: every method that is embedded at some depth has its signature in a list.
* `Extract.interface_lossless_iff`: an extraction is lossless exactly if listed interfaces declare
  the methods of those that are passed over, and so wherever texts tell interfaces apart.
-/

namespace Understudy

namespace Mock.Method

theorem exists_mem_distinct {l : List Method} {m : Method} (h : m ∈ l) :
    ∃ n ∈ distinct l, n.signature = m.signature := by
  induction l with
  | nil => cases h
  | cons a l ih =>
    rw [distinct]
    by_cases ha : a.signature = m.signature
    · exact ⟨a, List.mem_cons_self, ha⟩
    · rcases List.mem_cons.1 h with rfl | h
      · exact absurd rfl ha
      · obtain ⟨n, hn, hsig⟩ := ih h
        refine ⟨n, List.mem_cons_of_mem _ (List.mem_filter.2 ⟨hn, ?_⟩), hsig⟩
        simpa [sameSignature, hsig] using ha

theorem mem_of_mem_distinct {l : List Method} {m : Method} (h : m ∈ distinct l) : m ∈ l := by
  induction l with
  | nil => exact h
  | cons a l ih =>
    rcases List.mem_cons.1 h with rfl | h
    · exact List.mem_cons_self
    · exact List.mem_cons_of_mem _ (ih (List.mem_filter.1 h).1)

end Mock.Method

namespace Extract

variable {σ : Type} {g : TypeGraph} {q : Qualifier σ} {answer : PackageRef → String}

/-! ## Written signatures -/

/-- The signature of `spec` as it is written out with the fixed answers `answer`. -/
def written (g : TypeGraph) (answer : PackageRef → String) (spec : MethodSpec) :
    Option (String × List (String × Bool) × List String) :=
  (rendering g answer "" spec).map Mock.Method.signature

/-- The `origin` of a method plays no part in its signature. -/
theorem map_signature_rendering (g : TypeGraph) (answer : PackageRef → String) (origin : String)
    (spec : MethodSpec) :
    (rendering g answer origin spec).map Mock.Method.signature = written g answer spec := by
  unfold written rendering
  cases g.get? spec.signature with
  | none => rfl
  | some node =>
    cases (methodTypes g spec).all g.hasText with
    | false => cases node <;> rfl
    | true => cases node <;> rfl

/-- An interface that the walk from `id` lists declares a method that is written out like this. -/
def DeclaredByListed (g : TypeGraph) (answer : PackageRef → String) (id : TypeId)
    (spec : MethodSpec) : Prop :=
  ∃ listed ∈ g.explode id, ∃ spec' ∈ declaredMethods g listed,
    written g answer spec' = written g answer spec

theorem mem_allMethods {id : TypeId} {m : String × MethodSpec} :
    m ∈ allMethods g id ↔
      ∃ member ∈ g.explode id, m.2 ∈ declaredMethods g member ∧ m.1 = g.structuralText member := by
  simp only [allMethods, List.mem_flatMap, List.mem_map]
  constructor
  · rintro ⟨member, hmember, spec, hspec, rfl⟩
    exact ⟨member, hmember, hspec, rfl⟩
  · rintro ⟨member, hmember, hspec, horigin⟩
    exact ⟨member, hmember, m.2, hspec, Prod.ext horigin.symm rfl⟩

/-- The signatures of an extracted interface are those that the interfaces of `g.explode id`
declare. -/
theorem exists_method_iff {id : TypeId} {methods : List Mock.Method}
    (h : List.Forall₂ (fun m r => rendering g answer m.1 m.2 = some r) (allMethods g id) methods)
    (spec : MethodSpec) :
    (∃ m ∈ (Mock.Method.distinct methods).mergeSort fun m n => m.position.le n.position,
        written g answer spec = some m.signature) ↔ DeclaredByListed g answer id spec := by
  constructor
  · rintro ⟨m, hm, hspec⟩
    obtain ⟨a, ha, hrendering⟩ := Outcome.exists_of_forall₂ h.flip
      (Mock.Method.mem_of_mem_distinct (List.mem_mergeSort.1 hm))
    obtain ⟨member, hmember, hdeclared, -⟩ := mem_allMethods.1 ha
    refine ⟨member, hmember, a.2, hdeclared, ?_⟩
    rw [hspec, ← map_signature_rendering g answer a.1, hrendering]
    rfl
  · rintro ⟨member, hmember, spec', hdeclared, heq⟩
    obtain ⟨r, hr, hrendering⟩ := Outcome.exists_of_forall₂ h
      (mem_allMethods.2 ⟨member, hmember, hdeclared, rfl⟩ :
        (g.structuralText member, spec') ∈ allMethods g id)
    obtain ⟨m, hm, hsig⟩ := Mock.Method.exists_mem_distinct hr
    refine ⟨m, List.mem_mergeSort.2 hm, ?_⟩
    rw [← heq, ← map_signature_rendering g answer (g.structuralText member), hrendering, hsig]
    rfl

/-! ## Lost methods -/

/-- Every method of an interface that `id` embeds at some depth can be described, and the list has
a method with the signature of the description. -/
def Lossless (g : TypeGraph) (q : Qualifier σ) (id : TypeId) (methods : List Mock.Method) : Prop :=
  ∀ member, g.Reaches id member → ∀ spec ∈ declaredMethods g member, ∀ s,
    ∃ r s₁, (method g q (g.structuralText member) spec).run s = (.ok r, s₁) ∧
      ∃ m ∈ methods, m.sameSignature r = true

/-- The `structuralText` of an interface below `id` decides how the methods that it declares are
`written`. -/
def TextsDecideMethods (g : TypeGraph) (answer : PackageRef → String) (id : TypeId) : Prop :=
  ∀ a b, g.Reaches id a → g.Reaches id b → g.structuralText a = g.structuralText b →
    ∀ spec ∈ declaredMethods g a, ∃ spec' ∈ declaredMethods g b,
      written g answer spec' = written g answer spec

theorem lossless_iff_written (hq : q.Answers answer) (s : σ) {id : TypeId}
    {methods : List Mock.Method} :
    Lossless g q id methods ↔
      ∀ member, g.Reaches id member → ∀ spec ∈ declaredMethods g member,
        ∃ m ∈ methods, written g answer spec = some m.signature := by
  constructor
  · intro h member hreach spec hspec
    obtain ⟨r, s₁, hrun, m, hm, hsame⟩ := h member hreach spec hspec s
    refine ⟨m, hm, ?_⟩
    rw [← map_signature_rendering g answer (g.structuralText member), (method_ok hq hrun).1,
      of_decide_eq_true hsame]
    rfl
  · intro h member hreach spec hspec s
    obtain ⟨m, hm, hwritten⟩ := h member hreach spec hspec
    rw [← map_signature_rendering g answer (g.structuralText member),
      Option.map_eq_some_iff] at hwritten
    obtain ⟨r, hr, hsig⟩ := hwritten
    refine ⟨r, _, method_run hq hr s, m, hm, ?_⟩
    simp [Mock.Method.sameSignature, hsig]

/-- An extraction is `Lossless` exactly if a listed interface declares every method below one that
is `PassedOver`. That is so if texts decide what interfaces declare and embed, by
`TextsDecideMethods` and `TextsDecideEmbedded`. -/
theorem interface_lossless_iff (hq : q.Answers answer) {package : Package} {object : Object}
    {i : Mock.Interface} {s s₁ : σ} (h : (interface package object q).run s = (.ok i, s₁)) :
    ∃ id, package.types.interface? object.type = some id ∧
      (Lossless package.types q id i.methods ↔
        ∀ a, package.types.PassedOver id a → ∀ member, package.types.Reaches a member →
          ∀ spec ∈ declaredMethods package.types member,
            DeclaredByListed package.types answer id spec) ∧
      (TextsDecideMethods package.types answer id → package.types.TextsDecideEmbedded id →
        Lossless package.types q id i.methods) := by
  obtain ⟨id, methods, -, hid, -, -, -, hrendered, rfl, -⟩ := interface_ok hq h
  refine ⟨id, hid, ?_⟩
  simp only [lossless_iff_written hq s, exists_method_iff hrendered]
  refine ⟨⟨?_, ?_⟩, ?_⟩
  · intro hall a hpassed member hreach
    exact hall member (hpassed.reaches.trans hreach)
  · intro hbelow member hreach spec hspec
    rcases TypeGraph.mem_explode_or_below hreach with hlisted | ⟨a, hpassed, hreach⟩
    · exact ⟨member, hlisted, spec, hspec, rfl⟩
    · exact hbelow a hpassed member hreach spec hspec
  · intro hmethods htexts member hreach spec hspec
    obtain ⟨a, ha, htext⟩ := htexts.exists_mem_explode hreach
    exact ⟨a, ha, hmethods member a hreach (TypeGraph.reaches_of_mem_explode ha) htext.symm
      spec hspec⟩

/-! ## Samples -/

/-- A package whose types are `nodes`. -/
def ofTypes (nodes : Array TypeNode) : Package where
  name := "p"
  path := "p"
  files := []
  objects := #[]
  scope := .empty
  types := ⟨nodes⟩
  diagnostics := []

/-- The declaration of `I` as the type with a number. -/
def declarationOf (type : TypeId) : Object where
  name := "I"
  kind := .typeName
  type := type
  position := ⟨0, 1, 1⟩

/-- `I` embeds two interfaces with the same text. -/
def repeated : Package :=
  ofTypes #[
    .signature [] [] false,
    .interface [⟨"M", 0, ⟨0, 2, 1⟩⟩] [] false,
    .interface [⟨"M", 0, ⟨0, 3, 1⟩⟩] [] false,
    .interface [] [1, 2] false,
    .named "I" (some ⟨"p", "p"⟩) [] [] 3]

/-- `I` is an implicit interface around another, which is written as that other alone. -/
def wrapped : Package :=
  ofTypes #[
    .signature [] [] false,
    .interface [⟨"M", 0, ⟨0, 2, 1⟩⟩] [] false,
    .interface [] [1] true,
    .named "I" (some ⟨"p", "p"⟩) [] [] 2]

theorem explode_repeated : repeated.types.explode 3 = [3, 1] :=
  TypeGraph.explode_of_within 3 rfl

theorem interface_repeated :
    (interface repeated (declarationOf 4) (ImportScope.mk "p" []).qualify).run [] =
      (.ok {
        name := "I"
        typeParams := []
        methods := [{
          name := "M"
          params := []
          results := []
          origin := "interface\x7bM()\x7d"
          position := ⟨0, 2, 1⟩ }] }, []) :=
  interface_of_explode rfl rfl (TypeGraph.valid_of_closed [0, 1, 2, 3, 4] rfl (by decide))
    explode_repeated rfl rfl rfl (List.mergeSort_singleton _)

theorem reaches_repeated {member : TypeId} (h : repeated.types.Reaches 3 member) :
    member = 3 ∨ member = 1 ∨ member = 2 := by
  have hroot : repeated.types.embedded 3 = [1, 2] := rfl
  have hleaf : ∀ e ∈ repeated.types.embedded 3, repeated.types.embedded e = [] := by
    simp only [hroot, List.mem_cons, List.not_mem_nil, or_false]
    rintro e (rfl | rfl) <;> rfl
  simpa [hroot] using h.eq_or_mem hleaf

theorem declared_repeated {member : TypeId} (h : repeated.types.Reaches 3 member)
    {spec : MethodSpec} (hspec : spec ∈ declaredMethods repeated.types member) :
    spec.name = "M" ∧ spec.signature = 0 := by
  rcases reaches_repeated h with rfl | rfl | rfl
  · cases hspec
  · obtain rfl := List.mem_singleton.1 hspec
    exact ⟨rfl, rfl⟩
  · obtain rfl := List.mem_singleton.1 hspec
    exact ⟨rfl, rfl⟩

/-- In `repeated` the second of two interfaces with the same text is passed over, and its method is
kept with that of the first. -/
theorem interface_lossless_iff_repeated :
    ∃ i, (interface repeated (declarationOf 4) (ImportScope.mk "p" []).qualify).run [] =
        (.ok i, []) ∧
      Lossless repeated.types (ImportScope.mk "p" []).qualify 3 i.methods := by
  obtain ⟨id, hid, hiff, -⟩ := interface_lossless_iff (ImportScope.qualify_answers _)
    interface_repeated
  obtain rfl : 3 = id := Option.some.inj hid
  refine ⟨_, interface_repeated, ?_⟩
  refine hiff.2 fun a hpassed member hreach spec hspec => ?_
  obtain ⟨hname, hsignature⟩ := declared_repeated (hpassed.reaches.trans hreach) hspec
  refine ⟨1, by simp [explode_repeated], ⟨"M", 0, ⟨0, 2, 1⟩⟩, List.mem_singleton.2 rfl, ?_⟩
  simp only [written, rendering, methodTypes, hname, hsignature]
  rfl

theorem interface_wrapped :
    (interface wrapped (declarationOf 3) (ImportScope.mk "p" []).qualify).run [] =
      (.ok { name := "I", typeParams := [], methods := [] }, []) :=
  interface_of_explode rfl rfl (TypeGraph.valid_of_closed [0, 1, 2, 3] rfl (by decide))
    (TypeGraph.explode_of_within 2 rfl) rfl rfl rfl List.mergeSort_nil

/-- In `wrapped` the method of an interface that an implicit one is made of is lost. -/
theorem wrapped_method_lost :
    (interface wrapped (declarationOf 3) (ImportScope.mk "p" []).qualify).run [] =
        (.ok { name := "I", typeParams := [], methods := [] }, []) ∧
      wrapped.types.interface? (declarationOf 3).type = some 2 ∧
      ¬ Lossless wrapped.types (ImportScope.mk "p" []).qualify 2 [] := by
  refine ⟨interface_wrapped, rfl, fun hlossless => ?_⟩
  have hreach : wrapped.types.Reaches 2 1 := .single (by decide)
  obtain ⟨_, _, -, m, hm, -⟩ := hlossless 1 hreach _ List.mem_cons_self []
  cases hm

end Extract

end Understudy
