import Mathlib.Data.List.Nodup
import Mathlib.Data.Nat.Basic
import Understudy.Mock

/-!
# Names of parameters

A parameter without a name of its own gets one made from its place in the list. Made names differ
from each other, and declared names do if they are declared so. But a name is made without a look at
the other parameters, so it can be one that another parameter declares.

* `Mock.Params.argNames`: the names that a mock gives to its parameters.
* `Mock.Params.madeName`: the name made for a place in the list.
* `Mock.Params.argNames_nodup_iff`: the names differ exactly if no parameter declares the name made
  for another.
-/

namespace Understudy.Mock

/-- Whether `p` has no name of its own, or only a blank one. -/
def Param.isUnnamed (p : Param) : Bool := p.name = "" ∨ p.name = "_"

namespace Params

/-- The name made for the parameter at `index`. -/
def madeName (index : Nat) : String := "param" ++ toString (index + 1)

/-- The names that a mock gives to its parameters `ps`. -/
def argNames (ps : Params) : List String := (List.range ps.length).map ps.argName

/-- The names that the parameters `ps` have of their own. -/
def declaredNames (ps : Params) : List String := (ps.filter (!·.isUnnamed)).map (·.name)

theorem madeName_injective : Function.Injective madeName := by
  intro n m h
  have hdigits : toString (n + 1) = toString (m + 1) := (String.append_right_inj "param").1 h
  have hnumber : ∀ k, Nat.ofDigitChars 10 (toString k).toList 0 = k := fun k => by
    rw [Nat.toString_eq_repr, Nat.toList_repr, Nat.ofDigitChars_ten_toDigits]
  have hnext : n + 1 = m + 1 := by rw [← hnumber (n + 1), hdigits, hnumber]
  exact Nat.succ.inj hnext

/-- A parameter that is called `madeName index` has a name of its own. -/
theorem isUnnamed_of_name_eq {p : Param} {index : Nat} (h : p.name = madeName index) :
    p.isUnnamed = false := by
  have hchars : p.name.toList = 'p' :: ("aram".toList ++ (toString (index + 1)).toList) := by
    rw [h, madeName, String.toList_append]
    rfl
  have hempty : p.name ≠ "" := by
    intro heq
    rw [heq] at hchars
    cases hchars
  have hblank : p.name ≠ "_" := by
    intro heq
    rw [heq] at hchars
    cases hchars
  simp [Param.isUnnamed, hempty, hblank]

theorem argName_eq {ps : Params} {index : Nat} (h : index < ps.length) :
    ps.argName index = if ps[index].isUnnamed then madeName index else ps[index].name := by
  simp [argName, Param.isUnnamed, madeName, h]

/-- The `declaredNames` are those of different parameters. -/
theorem eq_of_name_eq {ps : Params} (hdistinct : ps.declaredNames.Nodup) {n m : Nat}
    (hn : n < ps.length) (hm : m < ps.length) (hnamed : ps[n].isUnnamed = false)
    (heq : ps[n].name = ps[m].name) : n = m := by
  have hnamed' : ps[m].isUnnamed = false := by
    rw [← hnamed]
    simp [Param.isUnnamed, heq]
  rw [declaredNames, List.Nodup, List.pairwise_map, List.pairwise_filter,
    List.pairwise_iff_getElem] at hdistinct
  rcases Nat.lt_trichotomy n m with hlt | rfl | hlt
  · exact absurd heq (hdistinct n m hn hm hlt (by simp [hnamed]) (by simp [hnamed']))
  · rfl
  · exact absurd heq.symm (hdistinct m n hm hn hlt (by simp [hnamed']) (by simp [hnamed]))

/-- What `f` makes of the parameters `ps` in a text that goes through them with their names. -/
theorem mapIdx_argName (ps : Params) (f : String → Param → String) :
    (ps.mapIdx fun i p => f (ps.argName i) p) = List.zipWith f ps.argNames ps := by
  refine List.ext_getElem (by simp [argNames]) fun n _ _ => ?_
  simp [argNames]

/-- If the `declaredNames` of `ps` differ, then the `argNames` that a mock gives to the parameters,
in the parameter list and in the arguments that it passes on, differ exactly if no parameter
declares the `madeName` of another one. -/
theorem argNames_nodup_iff {ps : Params} (hdistinct : ps.declaredNames.Nodup) :
    (ps.argNames.Nodup ↔
      ∀ (n : Nat) (hn : n < ps.length), ps[n].isUnnamed = true → ∀ p ∈ ps, p.name ≠ madeName n) ∧
    ps.namedText =
      ", ".intercalate (List.zipWith (fun name p => name ++ " " ++ p.declaredType) ps.argNames ps) ∧
    ps.argsText =
      ", ".intercalate
        (List.zipWith (fun name p => name ++ if p.variadic then "..." else "") ps.argNames ps) := by
  refine ⟨?_, congrArg _ (mapIdx_argName ps fun name p => name ++ " " ++ p.declaredType),
    congrArg _ (mapIdx_argName ps fun name p => name ++ if p.variadic then "..." else "")⟩
  rw [argNames, List.nodup_map_iff_inj_on List.nodup_range]
  simp only [List.mem_range]
  constructor
  · intro hinj n hn hunnamed p hp hname
    obtain ⟨m, hm, rfl⟩ := List.getElem_of_mem hp
    have hnamed := isUnnamed_of_name_eq hname
    have heq : ps.argName m = ps.argName n := by
      rw [argName_eq hm, argName_eq hn, hunnamed, hnamed]
      exact hname
    obtain rfl := hinj m hm n hn heq
    rw [hnamed] at hunnamed
    cases hunnamed
  · intro hmade n hn m hm heq
    rw [argName_eq hn, argName_eq hm] at heq
    cases hunnamed : ps[n].isUnnamed <;> cases hunnamed' : ps[m].isUnnamed <;>
      simp only [hunnamed, hunnamed', if_true, Bool.false_eq_true, if_false] at heq
    · exact eq_of_name_eq hdistinct hn hm hunnamed heq
    · exact absurd heq (hmade m hm hunnamed' _ (List.getElem_mem hn))
    · exact absurd heq.symm (hmade n hn hunnamed _ (List.getElem_mem hm))
    · exact madeName_injective heq

/-- A parameter declares `param3`, which would be made for the third one if that had no name of its
own. -/
theorem argNames_nodup_iff_apart :
    (declaredNames [⟨"param3", "int", false⟩, ⟨"_", "string", false⟩, ⟨"b", "bool", false⟩]).Nodup ∧
      (argNames [⟨"param3", "int", false⟩, ⟨"_", "string", false⟩, ⟨"b", "bool", false⟩]).Nodup := by
  have hdistinct : (declaredNames
      [⟨"param3", "int", false⟩, ⟨"_", "string", false⟩, ⟨"b", "bool", false⟩]).Nodup := by decide
  exact ⟨hdistinct, (argNames_nodup_iff hdistinct).1.2 (by decide +kernel)⟩

/-- A parameter declares `param2`, the name that is made for the blank one behind it. -/
theorem made_name_declared :
    (declaredNames [⟨"param2", "int", false⟩, ⟨"_", "string", false⟩]).Nodup ∧
      ¬ (argNames [⟨"param2", "int", false⟩, ⟨"_", "string", false⟩]).Nodup ∧
      namedText [⟨"param2", "int", false⟩, ⟨"_", "string", false⟩] = "param2 int, param2 string" ∧
      argsText [⟨"param2", "int", false⟩, ⟨"_", "string", false⟩] = "param2, param2" := by
  refine ⟨by decide, by decide +kernel, by decide +kernel, by decide +kernel⟩

end Params

end Understudy.Mock
