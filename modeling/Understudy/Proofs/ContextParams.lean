import Understudy.Proofs.KeptNames
import Understudy.Proofs.Methods
import Understudy.Proofs.Prefixes

/-!
# Parameters that are contexts

A template knows a context by the text of its type. That text is made of the name under which the
package `context` is imported. It is the one looked for unless another import of the group comes
first in the list and goes by the name `context`: then `context` is imported under a name that was
counted up, and its type is not known for a context any more.

* `TypeGraph.IsContext`: the type `Context` of the package `context`.
* `ImportScope.prefixOf_eq_name_iff`: when a package is written behind the name that it declares.
* `Extract.ContextDisplaced`: another import takes the name `context` first.
* `Extract.assemble_isContext_iff`: a context is known as such exactly if none does.
-/

namespace Understudy

open Name (lastSegment)

/-! ## The text of the type -/

namespace TypeGraph

variable {g : TypeGraph} {answer : PackageRef → String}

/-- A named type `id` without type parameters and arguments is written as its `name` behind what
`answer` gives for its package. -/
theorem textWith_named {id underlying : TypeId} {name : String} {p : PackageRef}
    (h : g.get? id = some (.named name (some p) [] [] underlying)) :
    g.textWith answer id = dotted (answer p) ++ name := by
  obtain ⟨d, hd⟩ : ∃ d, g.depth = d + 1 := Nat.exists_eq_succ_of_ne_zero (by simp [depth])
  have htokens : g.tokens id = [.package p, .text name] := by
    rw [tokens, hd, tokens?, h]
    rfl
  rw [textWith, htokens, Token.written, Token.written, Token.written, String.append_empty]

/-- The type `Context` of the package `context`. -/
def IsContext (g : TypeGraph) (id : TypeId) : Prop :=
  ∃ underlying, g.get? id = some (.named "Context" (some ⟨"context", "context"⟩) [] [] underlying)

theorem IsContext.textWith_iff {id : TypeId} (h : g.IsContext id) :
    g.textWith answer id = "context.Context" ↔ answer ⟨"context", "context"⟩ = "context" := by
  obtain ⟨underlying, hget⟩ := h
  have htext : "context.Context" = "context" ++ "." ++ "Context" := rfl
  rw [textWith_named hget, dotted]
  split
  · rename_i hempty
    rw [hempty]
    decide
  · rw [htext, String.append_left_inj, String.append_left_inj]

end TypeGraph

/-! ## The prefix of the package -/

theorem Import.localName_of_isBlank (i : Import) (h : i.isBlank = true) : i.localName = "_" := by
  rw [localName, of_decide_eq_true h, Option.getD_some]

theorem Import.localName_of_isDot (i : Import) (h : i.isDot = true) : i.localName = "." := by
  rw [localName, of_decide_eq_true h, Option.getD_some]

/-- A package `p` that is imported only plainly has the prefix `p.name`, if that is the last segment
of `p.path`, unless another import of `scope.imports` claims the name first. -/
theorem ImportScope.prefixOf_eq_name_iff {o : Options} {imports : List Import}
    {scope : ImportScope} (haggregated : Import.aggregate o imports = .ok scope.imports)
    {p : PackageRef} (hown : p.path ≠ scope.own) (hsegment : lastSegment p.path = p.name)
    (hname : Name.numeral p.name.toList = [])
    (hplain : ∀ i ∈ Import.merged o imports, i.path = p.path → i.name = none) :
    scope.prefixOf p = p.name ↔
      ¬ (⟨p.path, none⟩ ∈ Import.merged o imports ∧ Import.Displaced o imports p.path) := by
  rw [← hsegment] at hname
  by_cases hmem : ⟨p.path, none⟩ ∈ Import.merged o imports
  · obtain ⟨j, hfind, hkept, hcounted⟩ := Import.find?_aggregate haggregated hname hplain hmem
    have hj : scope.importOf p = j := by rw [importOf, find?, hfind]; rfl
    by_cases hdisplaced : Import.Displaced o imports p.path
    · obtain ⟨k, hk⟩ := hcounted hdisplaced
      have hne : ∀ s, Name.numeral s.toList = [] →
          Name.numbered (Name.stem (lastSegment p.path).toList) k ≠ s := by
        rintro _ hs rfl
        exact Name.numeral_numbered_ne_nil _ _ hs
      have hdot : j.isDot = false := by
        simpa [Import.isDot, hk] using hne "." rfl
      have hwritten :
          scope.prefixOf p = Name.numbered (Name.stem (lastSegment p.path).toList) k := by
        rw [prefixOf, if_neg hown, hj]
        simp [hdot, hk]
      rw [hwritten, ← hsegment]
      exact iff_of_false (hne _ hname) (not_not.2 ⟨hmem, hdisplaced⟩)
    · have hwritten : scope.prefixOf p = p.name := by
        rw [prefixOf, if_neg hown, hj]
        simp [Import.isDot, hkept hdisplaced]
      exact iff_of_true hwritten fun h => hdisplaced h.2
  · -- then nothing with this path is in the list
    have hnone : ∀ i ∈ scope.imports, i.path ≠ p.path := by
      intro i hi hpath
      obtain ⟨⟨path, name⟩, hi', hrenamed⟩ :=
        Outcome.exists_of_forall₂ (Import.settleAll_ok haggregated).1.flip hi
      obtain rfl : path = p.path := hrenamed.path.symm.trans hpath
      obtain rfl : name = none := hplain _ hi' rfl
      exact hmem hi'
    have hfind : scope.find? p.path = none := by
      rw [find?, List.find?_eq_none]
      intro i hi
      simp [hnone i hi]
    have hwritten : scope.prefixOf p = p.name := by
      rw [prefixOf, if_neg hown, importOf, hfind]
      rfl
    exact iff_of_true hwritten fun h => hmem h.1

namespace Extract

open Directive (Group)

/-! ## Parameters and their types -/

/-- `method` gives the `rendering` of `spec` in every state `s`. -/
theorem method_fst_eq_ok_iff {σ : Type} {g : TypeGraph} {q : Qualifier σ}
    {answer : PackageRef → String} (hq : q.Answers answer) {origin : String} {spec : MethodSpec}
    {m : Mock.Method} (s : σ) :
    ((method g q origin spec).run s).1 = .ok m ↔ rendering g answer origin spec = some m := by
  constructor
  · intro h
    exact (method_ok hq (Prod.ext h rfl)).1
  · intro h
    rw [method_run hq h]

/-- `m` is a method of the file that describes `spec`: the file holds it in the interface of an
object, and that interface, or one that it embeds, declares `spec`. -/
def DescribedIn (package : Package) (scope : ImportScope) (group : Group) (file : Mock.File)
    (m : Mock.Method) (spec : MethodSpec) : Prop :=
  ∃ (n : Nat) (id : ObjectId) (object : Object) (type : TypeId) (i : Mock.Interface)
    (origin : String), group.objects[n]? = some id ∧ package.object? id = some object ∧
    package.types.interface? object.type = some type ∧ file.interfaces[n]? = some i ∧
    m ∈ i.methods ∧ (origin, spec) ∈ allMethods package.types type ∧
    ∀ used, ((method package.types scope.qualify origin spec).run used).1 = .ok m

theorem DescribedIn.types_params {package : Package} {scope : ImportScope} {group : Group}
    {file : Mock.File} {m : Mock.Method} {spec : MethodSpec}
    (h : DescribedIn package scope group file m spec) :
    m.params.map (·.type) =
      (paramTypes package.types spec).map (package.types.textWith scope.prefixOf) := by
  obtain ⟨n, id, object, type, i, origin, -, -, -, -, -, -, hrun⟩ := h
  exact types_rendering ((method_fst_eq_ok_iff scope.qualify_answers []).1 (hrun []))

/-- Every method `m` of `file` describes one that was declared. -/
theorem exists_describedIn {package : Package} {scope : ImportScope} {group : Group}
    {file : Mock.File}
    (hall : List.Forall₂ (ExtractedAs package scope) group.objects file.interfaces)
    {i : Mock.Interface} (hi : i ∈ file.interfaces) {m : Mock.Method} (hm : m ∈ i.methods) :
    ∃ spec, DescribedIn package scope group file m spec := by
  obtain ⟨n, hn⟩ := List.getElem?_of_mem hi
  obtain ⟨id, hid, object, hobject, hrun⟩ := Outcome.getElem?_of_forall₂ hall.flip hn
  obtain ⟨type, methods, -, htype, -, -, -, hrendered, rfl, -⟩ :=
    interface_ok scope.qualify_answers (hrun [])
  obtain ⟨d, hd, hrendering⟩ := Outcome.exists_of_forall₂ hrendered.flip
    (Mock.Method.mem_of_mem_distinct (List.mem_mergeSort.1 hm))
  exact ⟨d.2, n, id, object, type, _, d.1, hid, hobject, htype, hn, hm, hd,
    fun used => (method_fst_eq_ok_iff scope.qualify_answers used).2 hrendering⟩

/-! ## Contexts -/

/-- `i` is an import of one of the `files`, or one for support. -/
def Listed (o : Options) (package : Package) (files : List FileId) (i : Import) : Prop :=
  (∃ id ∈ files, ∃ file, package.file? id = some file ∧ i ∈ file.imports) ∨
    ∃ path ∈ o.supportImports, Import.mk path none = i

/-- The package `context` is imported, and another import goes by the name `context` and comes
before: it is for support and `context` is not, or both or neither are and its path is the lesser
one. -/
def ContextDisplaced (o : Options) (package : Package) (files : List FileId) : Prop :=
  Listed o package files ⟨"context", none⟩ ∧
    ∃ i, Listed o package files i ∧ i.path ≠ "context" ∧ i.localName = "context" ∧
      Import.Precedes o i ⟨"context", none⟩

theorem listed_iff {o : Options} {package : Package} {files : List FileId} {imports : List Import}
    (h : groupImports package files = .ok imports) {i : Import} :
    Listed o package files i ↔ i ∈ Import.merged o imports := by
  rw [Import.mem_merged, mem_groupImports_iff h]
  rfl

theorem contextDisplaced_iff {o : Options} {package : Package} {files : List FileId}
    {imports : List Import} (h : groupImports package files = .ok imports) :
    ContextDisplaced o package files ↔
      ⟨"context", none⟩ ∈ Import.merged o imports ∧ Import.Displaced o imports "context" := by
  have hclaim : ∀ i : Import, i.claim? = some "context" ↔ i.localName = "context" := by
    intro i
    rw [Import.claim?_eq_some, and_iff_right_iff_imp]
    intro hlocal
    constructor
    · rw [Bool.eq_false_iff]
      exact fun hblank => absurd (hlocal.symm.trans (i.localName_of_isBlank hblank)) (by decide)
    · rw [Bool.eq_false_iff]
      exact fun hdot => absurd (hlocal.symm.trans (i.localName_of_isDot hdot)) (by decide)
  have hsegment : lastSegment "context" = "context" := rfl
  simp only [ContextDisplaced, Import.Displaced, listed_iff h, hsegment, hclaim]

/-- If the package is not `context` itself and its files import `context` without an alias or not
at all, then a parameter whose type is the context is written `context.Context`, and so known for
one, exactly if no other import displaces that of `context`. -/
theorem assemble_isContext_iff {o : Options} {packages : List Package} {group : Group}
    {file : Mock.File} (h : assemble o packages group = .ok file) {package : Package}
    (hpackage : packages[group.package]? = some package) (hown : package.path ≠ "context")
    (hplain : ∀ id ∈ group.files, ∀ source, package.file? id = some source →
      ∀ i ∈ source.imports, i.path = "context" → i.name = none) :
    ∃ imports aggregated, groupImports package group.files = .ok imports ∧
      Import.aggregate o imports = .ok aggregated ∧
      (∀ i ∈ file.interfaces, ∀ m ∈ i.methods,
        ∃ spec, DescribedIn package ⟨package.path, aggregated⟩ group file m spec) ∧
      ∀ m spec, DescribedIn package ⟨package.path, aggregated⟩ group file m spec →
        ∀ (k : Nat) (type : TypeId), (paramTypes package.types spec)[k]? = some type →
          package.types.IsContext type →
          ∃ p, m.params[k]? = some p ∧
            (p.type = "context.Context" ↔ ¬ ContextDisplaced o package group.files) ∧
            (p.isContext = true ↔ ¬ ContextDisplaced o package group.files) ∧
            (¬ ContextDisplaced o package group.files → m.takesContext = true) := by
  obtain ⟨package', imports, aggregated, hpackage', himports, haggregated, hrun, -⟩ :=
    assemble_ok h
  obtain rfl := Option.some.inj (hpackage.symm.trans hpackage')
  obtain ⟨hall, -⟩ := groupInterfaces_each hrun
  refine ⟨imports, aggregated, himports, haggregated,
    fun i hi m hm => exists_describedIn hall hi hm, ?_⟩
  intro m spec hdescribed k type htype hcontext
  have htypes := congrArg (·[k]?) hdescribed.types_params
  simp only [List.getElem?_map, htype, Option.map_some, Option.map_eq_some_iff] at htypes
  obtain ⟨p, hp, hptype⟩ := htypes
  have hmerged : ∀ i ∈ Import.merged o imports, i.path = "context" → i.name = none := by
    intro i hi hpath
    rcases (listed_iff himports).2 hi with ⟨id, hid, source, hsource, hi⟩ | ⟨path, -, rfl⟩
    · exact hplain id hid source hsource i hi hpath
    · rfl
  have htext : p.type = "context.Context" ↔ ¬ ContextDisplaced o package group.files := by
    rw [hptype, hcontext.textWith_iff, contextDisplaced_iff himports]
    exact ImportScope.prefixOf_eq_name_iff haggregated hown.symm rfl rfl hmerged
  have hknown : p.isContext = true ↔ ¬ ContextDisplaced o package group.files :=
    decide_eq_true_iff.trans htext
  refine ⟨p, hp, htext, hknown, fun hkept => ?_⟩
  exact List.any_eq_true.2 ⟨p, List.mem_of_getElem? hp, hknown.2 hkept⟩

/-! ## A sample -/

/-- An interface with a method `Get` that takes a context, in a file with the `imports`. -/
def contexts (imports : List Import) : Package where
  name := "p"
  path := "p"
  files := [{ id := 0, path := ⟨"p.go"⟩, imports, decls := [] }]
  objects := #[{ name := "I", kind := .typeName, type := 4, position := ⟨0, 1, 1⟩ }]
  scope := .empty
  types := ⟨#[
    .interface [] [] false,
    .named "Context" (some ⟨"context", "context"⟩) [] [] 0,
    .signature [⟨"ctx", 1⟩] [] false,
    .interface [⟨"Get", 2, ⟨0, 2, 1⟩⟩] [] false,
    .named "I" (some ⟨"p", "p"⟩) [] [] 3]⟩
  diagnostics := []

/-- The method `Get` of `contexts`, with `name` for the package of its parameter. -/
def contextMethod (name : String) : Mock.Method where
  name := "Get"
  params := [{ name := "ctx", type := name ++ ".Context" }]
  results := []
  origin := "interface\x7bGet(ctx context.Context)\x7d"
  position := ⟨0, 2, 1⟩

theorem file?_contexts {imports : List Import} {id : FileId} (hid : id ∈ [(0 : FileId)])
    {source : SourceFile} (h : (contexts imports).file? id = some source) :
    source.imports = imports := by
  obtain rfl := List.mem_singleton.1 hid
  obtain rfl := Option.some.inj (show some _ = some source from h)
  rfl

theorem explode_contexts (imports : List Import) : (contexts imports).types.explode 3 = [3] :=
  TypeGraph.explode_of_within 1 rfl

theorem allMethods_contexts (imports : List Import) :
    allMethods (contexts imports).types 3 =
      [("interface\x7bGet(ctx context.Context)\x7d", ⟨"Get", 2, ⟨0, 2, 1⟩⟩)] := by
  rw [allMethods, explode_contexts]
  rfl

theorem describedIn_contexts {imports : List Import} {scope : ImportScope} {file : Mock.File}
    {m : Mock.Method} {spec : MethodSpec}
    (h : DescribedIn (contexts imports) scope ⟨0, [0], [0]⟩ file m spec) :
    (paramTypes (contexts imports).types spec)[0]? = some 1 := by
  obtain ⟨n, id, object, type, i, origin, hn, hobject, htype, -, -, hmem, -⟩ := h
  obtain rfl := List.mem_singleton.1 (List.mem_of_getElem? hn)
  obtain rfl := Option.some.inj (show some _ = some object from hobject)
  obtain rfl := Option.some.inj (show some 3 = some type from htype)
  rw [allMethods_contexts, List.mem_singleton] at hmem
  obtain rfl := (Prod.mk.inj hmem).2
  rfl

/-- Here `context` comes first, and the other import gives way to it. -/
abbrev contextFirst : Package := contexts [⟨"context", none⟩, ⟨"d/context", none⟩]

/-- Here the other import comes first, and `context` gives way to it. -/
abbrev contextSecond : Package := contexts [⟨"a/context", none⟩, ⟨"context", none⟩]

theorem valid_contexts (imports : List Import) : (contexts imports).types.valid 4 = true :=
  TypeGraph.valid_of_closed [0, 1, 2, 3, 4] rfl (by decide)

theorem aggregate_contextFirst :
    Import.aggregate {} [⟨"context", none⟩, ⟨"d/context", none⟩] =
      .ok [⟨"sync/atomic", none⟩, ⟨"testing", none⟩, ⟨"context", none⟩,
        ⟨"d/context", some "context2"⟩] :=
  (Import.aggregate_of_sorted [⟨"sync/atomic", none⟩, ⟨"testing", none⟩, ⟨"context", none⟩,
    ⟨"d/context", none⟩] (by decide +kernel) (by decide +kernel)).trans (by decide +kernel)

theorem assemble_contextFirst :
    assemble {} [contextFirst] ⟨0, [0], [0]⟩ =
      .ok {
        package := "p"
        imports := [⟨"context", none⟩]
        interfaces := [{
          name := "I", typeParams := [], methods := [contextMethod "context"] }] } :=
  @assemble_of_run _ _ _ contextFirst _ _ _ _ rfl rfl aggregate_contextFirst
    (groupInterfaces_cons rfl (interface_of_explode rfl rfl (valid_contexts _) (explode_contexts _)
      rfl rfl rfl (List.mergeSort_singleton _)) rfl)

/-- The context of `contextFirst` is known for one. -/
theorem assemble_isContext_iff_first :
    ¬ ContextDisplaced {} contextFirst [0] ∧
      ∃ p, (contextMethod "context").params[0]? = some p ∧ p.isContext = true ∧
        (contextMethod "context").takesContext = true := by
  obtain ⟨imports, aggregated, -, -, hdescribed, hall⟩ :=
    assemble_isContext_iff assemble_contextFirst rfl (by decide)
      (fun id hid source h => file?_contexts hid h ▸ by decide)
  obtain ⟨spec, hspec⟩ := hdescribed _ List.mem_cons_self _ List.mem_cons_self
  obtain ⟨p, hp, htext, hknown, htakes⟩ :=
    hall _ spec hspec 0 1 (describedIn_contexts hspec) ⟨0, rfl⟩
  obtain rfl := Option.some.inj hp
  have hkept := htext.1 rfl
  exact ⟨hkept, _, hp, hknown.2 hkept, htakes hkept⟩

theorem aggregate_contextSecond :
    Import.aggregate {} [⟨"a/context", none⟩, ⟨"context", none⟩] =
      .ok [⟨"sync/atomic", none⟩, ⟨"testing", none⟩, ⟨"a/context", none⟩,
        ⟨"context", some "context2"⟩] :=
  (Import.aggregate_of_sorted [⟨"sync/atomic", none⟩, ⟨"testing", none⟩, ⟨"a/context", none⟩,
    ⟨"context", none⟩] (by decide +kernel) (by decide +kernel)).trans (by decide +kernel)

theorem assemble_contextSecond :
    assemble {} [contextSecond] ⟨0, [0], [0]⟩ =
      .ok {
        package := "p"
        imports := [⟨"context", some "context2"⟩]
        interfaces := [{
          name := "I", typeParams := [], methods := [contextMethod "context2"] }] } :=
  @assemble_of_run _ _ _ contextSecond _ _ _ _ rfl rfl aggregate_contextSecond
    (groupInterfaces_cons rfl (interface_of_explode rfl rfl (valid_contexts _) (explode_contexts _)
      rfl rfl rfl (List.mergeSort_singleton _)) rfl)

/-- The context of the second sample is written with a name that was counted up, and is not known
for a context, though the file imports `context` without an alias. -/
theorem displaced_context_unknown :
    contextSecond.path ≠ "context" ∧
      (∀ id ∈ [(0 : FileId)], ∀ source, contextSecond.file? id = some source →
        ∀ i ∈ source.imports, i.path = "context" → i.name = none) ∧
      ∃ file m, assemble {} [contextSecond] ⟨0, [0], [0]⟩ = .ok file ∧
        (∃ aggregated spec,
          Import.aggregate {} [⟨"a/context", none⟩, ⟨"context", none⟩] = .ok aggregated ∧
          DescribedIn contextSecond ⟨"p", aggregated⟩ ⟨0, [0], [0]⟩ file m spec ∧
          (paramTypes contextSecond.types spec)[0]? = some 1 ∧
          contextSecond.types.IsContext 1) ∧
        m.params = [{ name := "ctx", type := "context2.Context" }] ∧ m.takesContext = false := by
  refine ⟨by decide, fun id hid source h => file?_contexts hid h ▸ by decide, _,
    contextMethod "context2", assemble_contextSecond, ?_, rfl, rfl⟩
  obtain ⟨package, imports, aggregated, hpackage, himports, haggregated, hrun, -⟩ :=
    assemble_ok assemble_contextSecond
  obtain rfl := Option.some.inj (show some contextSecond = some package from hpackage)
  obtain rfl := Except.ok.inj (show Except.ok [_, _] = Except.ok imports from himports)
  obtain ⟨spec, hspec⟩ := exists_describedIn (groupInterfaces_each hrun).1 List.mem_cons_self
    List.mem_cons_self
  exact ⟨aggregated, spec, haggregated, hspec, describedIn_contexts hspec, 0, rfl⟩

end Extract

end Understudy
