import Understudy.Proofs.Cleaning
import Understudy.Proofs.Grouping

/-!
# Output paths that name one file

Where a directive or the options name the output file, its path is cleaned. Where it is named after
the source file, the directory stays as the source file spells it. So two groups can be for one
file, but only if a file that gives its name lies in a directory that is not spelled clean.

* `Directive.LexicallyDistinct`: no two paths of a table name the same file.
* `Directive.NamedAfter`: an output path that is made from the name of a source file.
* `Directive.clean_or_namedAfter`: all other output paths are clean.
* `Directive.scan_lexicallyDistinct_iff`: when the groups of a scan are for different files.
-/

namespace Understudy

open Understudy.Path (clean)

namespace Path

theorem Component.ofSegment?_eq_name {s : List Char} {t : String} :
    ofSegment? s = some (.name t) ↔
      (s ≠ [] ∧ s ≠ ['.'] ∧ s ≠ ['.', '.']) ∧ String.ofList s = t := by
  unfold ofSegment?
  split
  · simp_all
  split
  · simp_all
  split
  · simp_all
  · simp_all

theorem Component.plain_name_iff {s : String} :
    (Component.name s).Plain ↔
      (s.toList ≠ [] ∧ s.toList ≠ ['.'] ∧ s.toList ≠ ['.', '.']) ∧ '/' ∉ s.toList := by
  show ofSegment? s.toList = some (.name s) ∧ '/' ∉ s.toList ↔ _
  rw [ofSegment?_eq_name, String.ofList_toList]
  simp

/-- `splitName` cuts `name` at a dot that does not come first, or not at all. -/
theorem splitName_cases (name : String) :
    splitName name = (name, none) ∨
      ∃ before after, before ≠ [] ∧ name.toList = before ++ '.' :: after ∧
        splitName name = (String.ofList before, some (String.ofList after)) := by
  by_cases hbefore : (name.toList.reverse.dropWhile (· ≠ '.')).tail.reverse = []
  · exact .inl (if_pos hbefore)
  · refine .inr ⟨_, _, hbefore, ?_, if_neg hbefore⟩
    cases hdrop : name.toList.reverse.dropWhile (· ≠ '.') with
    | nil =>
      rw [hdrop] at hbefore
      exact absurd rfl hbefore
    | cons c rest =>
      obtain rfl : c = '.' := by
        have hhead := List.head?_dropWhile_not (fun c => decide (c ≠ '.')) name.toList.reverse
        rw [hdrop] at hhead
        simpa using hhead
      have hsplit : name.toList.reverse =
          name.toList.reverse.takeWhile (· ≠ '.') ++ '.' :: rest := by
        rw [← hdrop, List.takeWhile_append_dropWhile]
      have := congrArg List.reverse hsplit
      simpa using this

end Path

namespace Directive

/-- The directory of the source file `source`. -/
def directory (source : Path) : Path := source.parent?.getD ⟨""⟩

/-! ## Names made from source files -/

/-- `mockName o source`, made from the name of a source file, is a name of its own. -/
theorem plain_mockName {o : Options} (hsuffix : '/' ∉ o.mockSuffix.toList) {source : Path}
    (hname : source.fileName?.isSome) : (Path.Component.name (mockName o source)).Plain := by
  obtain ⟨name, hname⟩ := Option.isSome_iff_exists.1 hname
  have hmem : .name name ∈ source.components := by
    unfold Path.fileName? at hname
    split at hname
    · rename_i s hlast
      cases hname
      exact List.mem_of_getLast? hlast
    · cases hname
  obtain ⟨⟨hempty, hhere, hup⟩, hslash⟩ := Path.Component.plain_name_iff.1
    (Path.plain_of_mem_components hmem (by simp) (by simp))
  rw [Path.Component.plain_name_iff]
  rcases Path.splitName_cases name with hsplit | ⟨before, after, hbefore, htext, hsplit⟩
  · have hmock : (mockName o source).toList = name.toList ++ o.mockSuffix.toList := by
      simp [mockName, Path.stem?, Path.extension?, hname, hsplit]
    rw [hmock]
    generalize name.toList = cs at *
    rcases cs with _ | ⟨c, _ | ⟨d, rest⟩⟩ <;> simp_all
  · have hmock : (mockName o source).toList =
        before ++ o.mockSuffix.toList ++ '.' :: after := by
      simp [mockName, Path.stem?, Path.extension?, hname, hsplit]
    rw [hmock]
    rw [htext] at hup hslash
    generalize o.mockSuffix.toList = suffix at *
    rcases before with _ | ⟨c, _ | ⟨d, rest⟩⟩ <;> rcases suffix with _ | ⟨e, suffix⟩ <;> simp_all

theorem components_join_mockName {o : Options} (hsuffix : '/' ∉ o.mockSuffix.toList)
    {source : Path} (hname : source.fileName?.isSome) (dir : Path) :
    (dir.join (mockName o source)).components =
      dir.components ++ [.name (mockName o source)] := by
  obtain ⟨hsegment, hslash⟩ := plain_mockName hsuffix hname
  exact Path.components_join dir hsegment hslash

/-- Behind a plain `name`, a path is clean exactly if its directory `cs` is. -/
theorem clean_append_name (cs : List Path.Component) (name : String) :
    clean (cs ++ [.name name]) = cs ++ [.name name] ↔ clean cs = cs := by
  have hclean : clean (cs ++ [.name name]) = clean cs ++ [.name name] := by
    simp [clean, Path.Component.resolve]
  rw [hclean, List.append_cancel_right_eq]

/-! ## Paths that are not cleaned -/

/-- A declaration gives no output file, nor do the options, so that `path` is made from the name of
its source file. -/
def NamedAfter (o : Options) (packages : List Package) (source path : Path) : Prop :=
  o.defaultOutputFile.filter (· ≠ "") = none ∧
    path = (directory source).join (mockName o source) ∧
    ∃ p ∈ packages, ∃ file ∈ p.files, ∃ d ∈ file.decls, file.path = source ∧
      d.doc.findSome? (argument? o.marker) = some "" ∧ (d.specs.findSome? (·.object)).isSome

theorem mem_annotated_iff_target {o : Options} {packages : List Package} {path : Path} :
    (∃ a ∈ annotated o packages, a.path = path) ↔
      ∃ p ∈ packages, ∃ file ∈ p.files, ∃ d ∈ file.decls, ∃ object,
        target? o file.path d = some (path, object) := by
  constructor
  · rintro ⟨a, ha, rfl⟩
    obtain ⟨⟨p, index⟩, hp, ha⟩ := List.mem_flatMap.1 ha
    obtain ⟨file, hfile, ha⟩ := List.mem_flatMap.1 ha
    obtain ⟨d, hd, ha⟩ := List.mem_filterMap.1 ha
    obtain ⟨⟨path, object⟩, htarget, rfl⟩ := Option.map_eq_some_iff.1 ha
    exact ⟨p, List.fst_mem_of_mem_zipIdx hp, file, hfile, d, hd, object, htarget⟩
  · rintro ⟨p, hp, file, hfile, d, hd, object, htarget⟩
    obtain ⟨index, hp⟩ := List.mem_iff_getElem?.1 hp
    refine ⟨⟨index, file.id, path, object⟩, List.mem_flatMap.2 ⟨(p, index),
      List.mk_mem_zipIdx_iff_getElem?.2 hp, List.mem_flatMap.2 ⟨file, hfile,
        List.mem_filterMap.2 ⟨d, hd, ?_⟩⟩⟩, rfl⟩
    rw [htarget]
    rfl

theorem target?_eq_some {o : Options} {source path : Path} {d : Decl} {object : ObjectId} :
    target? o source d = some (path, object) ↔
      ∃ argument, d.doc.findSome? (argument? o.marker) = some argument ∧
        d.specs.findSome? (·.object) = some object ∧ outputPath o source argument = path := by
  simp only [target?, Option.bind_eq_bind, Option.bind_eq_some_iff]
  constructor
  · rintro ⟨argument, hargument, object', hobject, h⟩
    cases h
    exact ⟨argument, hargument, hobject, rfl⟩
  · rintro ⟨argument, hargument, hobject, rfl⟩
    exact ⟨argument, hargument, object, hobject, rfl⟩

/-- `outputPath o source argument` is clean unless it is made from the name of `source`. -/
theorem outputPath_cases (o : Options) (source : Path) (argument : String) :
    clean (outputPath o source argument).components = (outputPath o source argument).components ∨
      (argument = "" ∧ o.defaultOutputFile.filter (· ≠ "") = none ∧
        outputPath o source argument = (directory source).join (mockName o source)) := by
  by_cases hargument : argument = ""
  · subst hargument
    cases hdefault : o.defaultOutputFile.filter (· ≠ "") with
    | none =>
      refine .inr ⟨rfl, rfl, ?_⟩
      simp only [outputPath, hdefault]
      rfl
    | some file =>
      refine .inl ?_
      simp only [outputPath, hdefault]
      exact Path.clean_joinClean _ _
  · refine .inl ?_
    simp only [outputPath, if_pos hargument]
    exact Path.clean_joinClean _ _

theorem clean_or_namedAfter {o : Options} {packages : List Package} {a : Annotated}
    (ha : a ∈ annotated o packages) :
    clean a.path.components = a.path.components ∨
      ∃ source, NamedAfter o packages source a.path := by
  obtain ⟨p, hp, file, hfile, d, hd, object, htarget⟩ := mem_annotated_iff_target.1 ⟨a, ha, rfl⟩
  obtain ⟨argument, hargument, hobject, hpath⟩ := target?_eq_some.1 htarget
  rw [← hpath]
  refine (outputPath_cases o file.path argument).imp_right ?_
  rintro ⟨rfl, hdefault, hnamed⟩
  exact ⟨file.path, hdefault, hnamed, p, hp, file, hfile, d, hd, rfl, hargument, by simp [hobject]⟩

theorem NamedAfter.exists_annotated {o : Options} {packages : List Package} {source path : Path}
    (h : NamedAfter o packages source path) : ∃ a ∈ annotated o packages, a.path = path := by
  obtain ⟨hdefault, hpath, p, hp, file, hfile, d, hd, rfl, hargument, hobject⟩ := h
  obtain ⟨object, hobject⟩ := Option.isSome_iff_exists.1 hobject
  refine mem_annotated_iff_target.2 ⟨p, hp, file, hfile, d, hd, object, target?_eq_some.2
    ⟨"", hargument, hobject, ?_⟩⟩
  rw [hpath]
  simp only [outputPath, hdefault]
  rfl

/-! ## Groups for one file -/

/-- Paths of the table that become the same when `.` and `..` are resolved are the same path. -/
def LexicallyDistinct (t : Path.Table Group) : Prop :=
  ∀ e ∈ t, ∀ e' ∈ t, clean e.1.components = clean e'.1.components → e.1 = e'.1

theorem lexicallyDistinct_iff {items : List Annotated} :
    LexicallyDistinct (groups items) ↔
      ∀ a ∈ items, ∀ b ∈ items, clean a.path.components = clean b.path.components →
        a.path.components = b.path.components := by
  constructor
  · intro h a ha b hb hclean
    obtain ⟨path, group, hmem, hpath⟩ := exists_group ha
    obtain ⟨path', group', hmem', hpath'⟩ := exists_group hb
    have hsame : path = path' := h _ hmem _ hmem' (by rw [hpath, hpath', hclean])
    rw [← hpath, ← hpath', hsame]
  · intro h e he e' he' hclean
    obtain ⟨a, ha, hpath, -⟩ := exists_of_mem_groups he
    obtain ⟨b, hb, hpath', -⟩ := exists_of_mem_groups he'
    have hsame := h a ha b hb (by rw [hpath, hpath', hclean])
    rw [(ascending_groups items).eq_of_components he he' (by rw [← hpath, ← hpath', hsame])]

/-- The groups `t` of a scan are `LexicallyDistinct` exactly if every path that is `NamedAfter` a
source file, and that is not clean, is spelled alike by all declarations directed to its file. That
is so if the files that give their names lie in a `directory` that is spelled clean. -/
theorem scan_lexicallyDistinct_iff {o : Options} (hsuffix : '/' ∉ o.mockSuffix.toList)
    {packages : List Package} {t : Path.Table Group} (h : scan o packages = .ok t) :
    (LexicallyDistinct t ↔
      ∀ source path, NamedAfter o packages source path →
        clean path.components ≠ path.components →
        ∀ a ∈ annotated o packages, clean a.path.components = clean path.components →
          a.path.components = path.components) ∧
    ((∀ source path, NamedAfter o packages source path → source.fileName?.isSome ∧
        clean (directory source).components = (directory source).components) →
      LexicallyDistinct t) := by
  obtain ⟨-, rfl⟩ := scan_ok h
  have hiff : LexicallyDistinct (groups (annotated o packages)) ↔
      ∀ source path, NamedAfter o packages source path →
        clean path.components ≠ path.components →
        ∀ a ∈ annotated o packages, clean a.path.components = clean path.components →
          a.path.components = path.components := by
    rw [lexicallyDistinct_iff]
    constructor
    · intro hall source path hnamed _ a ha hclean
      obtain ⟨b, hb, rfl⟩ := hnamed.exists_annotated
      exact hall a ha b hb hclean
    · intro hnamed a ha b hb hclean
      by_cases hcleanA : clean a.path.components = a.path.components
      · by_cases hcleanB : clean b.path.components = b.path.components
        · rw [← hcleanA, hclean, hcleanB]
        · obtain ⟨source, hsource⟩ := (clean_or_namedAfter hb).resolve_left hcleanB
          exact hnamed source b.path hsource hcleanB a ha hclean
      · obtain ⟨source, hsource⟩ := (clean_or_namedAfter ha).resolve_left hcleanA
        exact (hnamed source a.path hsource hcleanA b hb hclean.symm).symm
  refine ⟨hiff, fun hdirectories => hiff.2 ?_⟩
  intro source path hnamed hunclean
  obtain ⟨hname, hdirectory⟩ := hdirectories source path hnamed
  refine absurd ?_ hunclean
  rw [hnamed.2.1, components_join_mockName hsuffix hname]
  exact (clean_append_name _ _).2 hdirectory

/-- A package with a file `first` and a file `second` of one declaration each. The second of them
names its output file, as `argument`. -/
def pair (first second : Path) (argument : String) : Package where
  name := "p"
  path := "p"
  files := [
    ⟨0, first, [], [⟨["//go:mock"], [⟨"I", some 0⟩]⟩]⟩,
    ⟨1, second, [], [⟨["//go:mock " ++ argument], [⟨"J", some 1⟩]⟩]⟩]
  objects := #[]
  scope := .empty
  types := .empty
  diagnostics := []

theorem scan_pair_clean :
    scan {} [pair ⟨"p//x.go"⟩ ⟨"q/y.go"⟩ "../p/x_mock.go"] =
      .ok [(⟨"p/x_mock.go"⟩, ⟨0, [0, 1], [0, 1]⟩)] := by
  rfl

theorem namedAfter_pair {source path : Path}
    (h : NamedAfter {} [pair ⟨"p//x.go"⟩ ⟨"q/y.go"⟩ "../p/x_mock.go"] source path) :
    source = ⟨"p//x.go"⟩ := by
  obtain ⟨-, -, p, hp, file, hfile, d, hd, rfl, hargument, -⟩ := h
  obtain rfl := List.mem_singleton.1 hp
  rcases List.mem_cons.1 hfile with rfl | hfile
  · rfl
  · obtain rfl := List.mem_singleton.1 hfile
    obtain rfl := List.mem_singleton.1 hd
    exact absurd hargument (by decide)

/-- The file named after `p//x.go` and the same file named by a directive have one group, however
many slashes there are. -/
theorem scan_lexicallyDistinct_iff_pair :
    '/' ∉ (Options.mockSuffix {}).toList ∧
      ∃ t, scan {} [pair ⟨"p//x.go"⟩ ⟨"q/y.go"⟩ "../p/x_mock.go"] = .ok t ∧
        LexicallyDistinct t := by
  refine ⟨by decide, _, scan_pair_clean,
    (scan_lexicallyDistinct_iff (by decide) scan_pair_clean).2 fun source path hnamed => ?_⟩
  rw [namedAfter_pair hnamed]
  exact ⟨rfl, rfl⟩

theorem scan_pair_raw :
    scan {} [pair ⟨"./x.go"⟩ ⟨"y.go"⟩ "x_mock.go"] =
      .ok [(⟨"./x_mock.go"⟩, ⟨0, [0], [0]⟩), (⟨"x_mock.go"⟩, ⟨0, [1], [1]⟩)] := by
  rfl

/-- A `.` before the source file stays in the path made from its name, and the same file has two
groups. -/
theorem pair_groups_coincide :
    '/' ∉ (Options.mockSuffix {}).toList ∧
      ∃ t, scan {} [pair ⟨"./x.go"⟩ ⟨"y.go"⟩ "x_mock.go"] = .ok t ∧ ¬ LexicallyDistinct t := by
  refine ⟨by decide, _, scan_pair_raw, fun h => ?_⟩
  have hsame : Path.mk "./x_mock.go" = ⟨"x_mock.go"⟩ :=
    h _ List.mem_cons_self _ (List.mem_cons_of_mem _ List.mem_cons_self) rfl
  exact absurd hsame (by decide)

end Directive

end Understudy
