import Understudy.Codec.Mock
import Understudy.Proofs.Decoding
import Understudy.Proofs.JsonText

/-!
# Encoding and decoding again

Packages and mock files are decoded from their encodings as they were, and so they are from the text
that is written of these. One pair of lemmas for each kind of record: it is decoded again, and it is
data of so many levels.

* `decodeType_tagged`: the fields of a type are decoded under its kind.
* `ofList_entries`: a scope is made again of its entries, which are in ascending order.
* `decode_encode`: packages and mock files, as values and as text.
-/

namespace Understudy

namespace Codec

open Document
open Document.Value (Data)
open Decoder

/-! ## Types -/

@[simp] theorem decodePosition_encodePosition (p : Position) :
    decodePosition (encodePosition p) = some p := by
  simp [decodePosition, encodePosition]

@[simp] theorem data_encodePosition (n : Nat) (p : Position) : Data (n + 1) (encodePosition p) := by
  simp [encodePosition]

@[simp] theorem decodePackageRef_encodePackageRef (p : PackageRef) :
    decodePackageRef (encodePackageRef p) = some p := by
  simp [decodePackageRef, encodePackageRef]

@[simp] theorem data_encodePackageRef (n : Nat) (p : PackageRef) :
    Data (n + 1) (encodePackageRef p) := by
  simp [encodePackageRef]

@[simp] theorem optional_encodeOption_encodePackageRef (p : Option PackageRef) :
    optional decodePackageRef (encodeOption encodePackageRef p) = some p :=
  optional_encodeOption decodePackageRef_encodePackageRef (fun _ => rfl) p

@[simp] theorem decodeVar_encodeVar (v : Var) : decodeVar (encodeVar v) = some v := by
  simp [decodeVar, encodeVar]

@[simp] theorem data_encodeVar (n : Nat) (v : Var) : Data (n + 1) (encodeVar v) := by
  simp [encodeVar]

@[simp] theorem decodeField_encodeField (f : Field) : decodeField (encodeField f) = some f := by
  simp [decodeField, encodeField]

@[simp] theorem data_encodeField (n : Nat) (f : Field) : Data (n + 1) (encodeField f) := by
  simp [encodeField]

@[simp] theorem decodeMethodSpec_encodeMethodSpec (m : MethodSpec) :
    decodeMethodSpec (encodeMethodSpec m) = some m := by
  simp [decodeMethodSpec, encodeMethodSpec]

@[simp] theorem data_encodeMethodSpec (n : Nat) (m : MethodSpec) :
    Data (n + 2) (encodeMethodSpec m) := by
  simp [encodeMethodSpec]

@[simp] theorem decodeTerm_encodeTerm (t : Term) : decodeTerm (encodeTerm t) = some t := by
  simp [decodeTerm, encodeTerm]

@[simp] theorem data_encodeTerm (n : Nat) (t : Term) : Data (n + 1) (encodeTerm t) := by
  simp [encodeTerm]

@[simp] theorem decodeTypeParamSpec_encodeTypeParamSpec (p : TypeParamSpec) :
    decodeTypeParamSpec (encodeTypeParamSpec p) = some p := by
  simp [decodeTypeParamSpec, encodeTypeParamSpec]

@[simp] theorem data_encodeTypeParamSpec (n : Nat) (p : TypeParamSpec) :
    Data (n + 1) (encodeTypeParamSpec p) := by
  simp [encodeTypeParamSpec]

@[simp] theorem basicOfKey?_basicKey (b : BasicType) : basicOfKey? (basicKey b) = some b := by
  cases b <;> simp [basicOfKey?, basicTypes, basicKey, BasicType.name]

@[simp] theorem chanOfKey?_chanKey (dir : ChanDir) : chanOfKey? (chanKey dir) = some dir := by
  cases dir <;> simp [chanOfKey?, chanDirs, chanKey]

@[simp] theorem nameInType_text {α : Type} (all : List α) (value? : String → Option α)
    (s : String) : nameInType all value? (.text s) = value? s := rfl

@[simp] theorem decodeList_some {α : Type} (d : Decoder α) (v : Value) :
    decodeList d (some v) = list d v := rfl

@[simp] theorem decodePackageField_some (v : Value) :
    decodePackageField (some v) = optional decodePackageRef v := rfl

@[simp] theorem data_encodeType (n : Nat) (t : TypeNode) : Data (n + 4) (encodeType t) := by
  cases t <;> simp [encodeType, tagged]

/-- The entries `es` beside the `kind` are decoded as they are, since nothing in them was left
open. -/
theorem decodeType_tagged {n : Nat} {kind : String} {es : List (String × Value)}
    (hdata : Data (n + 1) (tagged kind es)) (hes : "kind" ∉ es.map Prod.fst) :
    decodeType (tagged kind es) = decodeKind kind (.record es) := by
  have hnone : ∀ e ∈ es, e.1 ≠ "kind" := fun e he heq => hes (List.mem_map.2 ⟨e, he, heq⟩)
  have hfield : field? (("kind", .text kind) :: es) "kind" = some (some (.text kind)) := by
    have hothers : es.filter (·.1 = "kind") = [] := by simpa using hnone
    simp [field?, hothers]
  have hrest : (("kind", .text kind) :: es).filter (·.1 ≠ "kind") = es := by
    simpa [List.filter_eq_self] using hnone
  have hbody : Data (n + 1) (.record es) :=
    .record fun e he => Value.data_record_iff.1 hdata e (List.mem_cons_of_mem _ he)
  have hsettled : settled (.record es) = some (.record es) := by
    simp [settled, hbody.resolve_eq, hbody.isFit]
  rw [tagged, decodeType, hfield, hrest, hsettled]
  rfl

@[simp] theorem decodeType_encodeType (t : TypeNode) : decodeType (encodeType t) = some t := by
  have hdata := data_encodeType 0 t
  cases t <;> rw [encodeType] at hdata ⊢ <;> rw [decodeType_tagged hdata (by simp)] <;>
    simp [decodeKind]

@[simp] theorem decodeGraph_encodeGraph (g : TypeGraph) : decodeGraph (encodeGraph g) = some g := by
  simp [decodeGraph, encodeGraph]

@[simp] theorem data_encodeGraph (n : Nat) (g : TypeGraph) : Data (n + 5) (encodeGraph g) := by
  simp [encodeGraph]

/-! ## Packages -/

@[simp] theorem objectOfKey?_objectKey (kind : ObjectKind) :
    objectOfKey? (objectKey kind) = some kind := by
  cases kind <;> simp [objectOfKey?, objectKey]

@[simp] theorem name_text {α : Type} (value? : String → Option α) (s : String) :
    Decoder.name value? (.text s) = value? s := rfl

/-- The alias of `i` is left out if there is none. -/
@[simp] theorem decodeImport_encodeImport (i : Import) :
    decodeImport (encodeImport i) = some i := by
  obtain ⟨path, name⟩ := i
  cases name with
  | some name => simp [decodeImport, encodeImport, Decoder.optional]
  | none =>
    have hfields : fields ["path", "name"] (.record [("path", .text path)]) =
        some [some (.text path), none] := by
      simp [fields, field?]
    simp [decodeImport, encodeImport, hfields]

@[simp] theorem data_encodeImport (n : Nat) (i : Import) : Data (n + 1) (encodeImport i) := by
  obtain ⟨path, name⟩ := i
  cases name <;> simp [encodeImport]

@[simp] theorem decodeObject_encodeObject (o : Object) :
    decodeObject (encodeObject o) = some o := by
  simp [decodeObject, encodeObject]

@[simp] theorem data_encodeObject (n : Nat) (o : Object) : Data (n + 2) (encodeObject o) := by
  simp [encodeObject]

@[simp] theorem decodeTypeSpec_encodeTypeSpec (s : TypeSpec) :
    decodeTypeSpec (encodeTypeSpec s) = some s := by
  simp [decodeTypeSpec, encodeTypeSpec]

@[simp] theorem data_encodeTypeSpec (n : Nat) (s : TypeSpec) : Data (n + 1) (encodeTypeSpec s) := by
  simp [encodeTypeSpec]

@[simp] theorem decodeDecl_encodeDecl (d : Decl) : decodeDecl (encodeDecl d) = some d := by
  simp [decodeDecl, encodeDecl]

@[simp] theorem data_encodeDecl (n : Nat) (d : Decl) : Data (n + 3) (encodeDecl d) := by
  simp [encodeDecl]

@[simp] theorem decodeSourceFile_encodeSourceFile (f : SourceFile) :
    decodeSourceFile (encodeSourceFile f) = some f := by
  simp [decodeSourceFile, encodeSourceFile]

@[simp] theorem data_encodeSourceFile (n : Nat) (f : SourceFile) :
    Data (n + 5) (encodeSourceFile f) := by
  simp [encodeSourceFile]

@[simp] theorem decodeDiagnostic_encodeDiagnostic (d : Diagnostic) :
    decodeDiagnostic (encodeDiagnostic d) = some d := by
  simp [decodeDiagnostic, encodeDiagnostic]

@[simp] theorem data_encodeDiagnostic (n : Nat) (d : Diagnostic) :
    Data (n + 1) (encodeDiagnostic d) := by
  simp [encodeDiagnostic]

/-- An entry for `name` behind all those of `l` stays there. -/
theorem insertEntry_eq_append {name : String} {id : ObjectId} {l : List (String × ObjectId)}
    (h : ∀ e ∈ l, e.1 < name) : Scope.insertEntry name id l = l ++ [(name, id)] := by
  induction l with
  | nil => rfl
  | cons a rest ih =>
    have ha : a.1 < name := h a List.mem_cons_self
    rw [Scope.insertEntry, if_neg (String.lt_asymm ha), if_pos ha,
      ih fun e he => h e (List.mem_cons_of_mem _ he), List.cons_append]

theorem entries_foldl_insert (l : List (String × ObjectId)) (s : Scope)
    (h : (s.entries ++ l).Pairwise fun a b => a.1 < b.1) :
    (l.foldl (fun s e => s.insert e.1 e.2) s).entries = s.entries ++ l := by
  induction l generalizing s with
  | nil => simp
  | cons e rest ih =>
    have hlast : ∀ a ∈ s.entries, a.1 < e.1 := fun a ha =>
      (List.pairwise_append.1 h).2.2 a ha e List.mem_cons_self
    have hinsert : (s.insert e.1 e.2).entries = s.entries ++ [e] := insertEntry_eq_append hlast
    rw [List.foldl_cons, ih, hinsert, List.append_assoc, List.singleton_append]
    rwa [hinsert, List.append_assoc, List.singleton_append]

/-- `s` is made of its `entries`. -/
theorem ofList_entries (s : Scope) : Scope.ofList s.entries = s := by
  have hentries : (Scope.ofList s.entries).entries = s.entries :=
    entries_foldl_insert s.entries Scope.empty s.ascending
  obtain ⟨entries, ascending⟩ := s
  generalize Scope.ofList entries = t at hentries
  obtain ⟨entries', ascending'⟩ := t
  cases hentries
  rfl

@[simp] theorem decodeScope_encodeScope (s : Scope) : decodeScope (encodeScope s) = some s := by
  have hentries : entries uint32 (encodeScope s) = some s.entries := by
    have h : (s.entries.map fun e => (e.1, encodeId e.2)).mapM
        (fun e => (uint32 e.2).map (e.1, ·)) = some (s.entries.map id) :=
      Outcome.mapM_map_eq_some fun e _ => by simp
    rwa [List.map_id] at h
  simp [decodeScope, hentries, ofList_entries]

@[simp] theorem data_encodeScope (n : Nat) (s : Scope) : Data (n + 1) (encodeScope s) := by
  refine .record fun e he => ?_
  obtain ⟨⟨name, id⟩, -, rfl⟩ := List.mem_map.1 he
  exact data_encodeId n id

theorem decodePackage_encodePackage (p : Package) : decodePackage (encodePackage p) = some p := by
  simp [decodePackage, encodePackage]

theorem data_encodePackage (n : Nat) (p : Package) : Data (n + 7) (encodePackage p) := by
  simp [encodePackage]

/-! ## Mock files -/

@[simp] theorem decodeTypeParam_encodeTypeParam (p : Mock.TypeParam) :
    decodeTypeParam (encodeTypeParam p) = some p := by
  simp [decodeTypeParam, encodeTypeParam]

@[simp] theorem data_encodeTypeParam (n : Nat) (p : Mock.TypeParam) :
    Data (n + 1) (encodeTypeParam p) := by
  simp [encodeTypeParam]

@[simp] theorem decodeParam_encodeParam (p : Mock.Param) :
    decodeParam (encodeParam p) = some p := by
  simp [decodeParam, encodeParam]

@[simp] theorem data_encodeParam (n : Nat) (p : Mock.Param) : Data (n + 1) (encodeParam p) := by
  simp [encodeParam]

@[simp] theorem decodeResult_encodeResult (r : Mock.Result) :
    decodeResult (encodeResult r) = some r := by
  simp [decodeResult, encodeResult]

@[simp] theorem data_encodeResult (n : Nat) (r : Mock.Result) : Data (n + 1) (encodeResult r) := by
  simp [encodeResult]

@[simp] theorem decodeMethod_encodeMethod (m : Mock.Method) :
    decodeMethod (encodeMethod m) = some m := by
  simp [decodeMethod, encodeMethod]

@[simp] theorem data_encodeMethod (n : Nat) (m : Mock.Method) : Data (n + 3) (encodeMethod m) := by
  simp [encodeMethod]

@[simp] theorem decodeInterface_encodeInterface (i : Mock.Interface) :
    decodeInterface (encodeInterface i) = some i := by
  simp [decodeInterface, encodeInterface]

@[simp] theorem data_encodeInterface (n : Nat) (i : Mock.Interface) :
    Data (n + 5) (encodeInterface i) := by
  simp [encodeInterface]

theorem decodeFile_encodeFile (f : Mock.File) : decodeFile (encodeFile f) = some f := by
  simp [decodeFile, encodeFile]

theorem data_encodeFile (n : Nat) (f : Mock.File) : Data (n + 7) (encodeFile f) := by
  simp [encodeFile]

/-! ## Texts -/

/-- What `d` decodes from `v` is decoded from its text, on one line or on many. -/
theorem read?_bind {α : Type} {d : Decoder α} {v : Value} {a : α} (hdata : Data Json.maxDepth v)
    (h : d v = some a) :
    (Json.read? (Json.compact v)).bind d = some a ∧
      (Json.read? (Json.pretty v)).bind d = some a := by
  rw [Json.compact, Json.pretty, Json.read?_writeAt Json.Layout.isBlank_compact hdata,
    Json.read?_writeAt Json.Layout.isBlank_indented hdata]
  exact ⟨h, h⟩

/-- Every package `p` and every mock file `f` is decoded from its encoding, and from the text that
is written of it, by `compact` as by `pretty`. -/
theorem decode_encode (p : Package) (f : Mock.File) :
    decodePackage (encodePackage p) = some p ∧
      (Json.read? (Json.compact (encodePackage p))).bind decodePackage = some p ∧
      (Json.read? (Json.pretty (encodePackage p))).bind decodePackage = some p ∧
      decodeFile (encodeFile f) = some f ∧
      (Json.read? (Json.compact (encodeFile f))).bind decodeFile = some f ∧
      (Json.read? (Json.pretty (encodeFile f))).bind decodeFile = some f := by
  have hpackage := read?_bind (data_encodePackage 120 p) (decodePackage_encodePackage p)
  have hfile := read?_bind (data_encodeFile 120 f) (decodeFile_encodeFile f)
  exact ⟨decodePackage_encodePackage p, hpackage.1, hpackage.2, decodeFile_encodeFile f, hfile⟩

end Codec

end Understudy
