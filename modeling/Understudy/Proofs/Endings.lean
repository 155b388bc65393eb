import Mathlib.Data.Fintype.Card
import Mathlib.Data.FinEnum
import Understudy.Proofs.Depths
import Understudy.Proofs.Parametricity
import Understudy.Proofs.Spelling

/-!
# Where writing ends

A type that is being written is cut short when it is met again, unless it is written by name. What
may go on for ever is a name with a name in its brackets, and so on round a circle. Without such a
circle every type and every signature has a text, however the graph is knotted otherwise.

* `TypeGraph.BracketedIn`: the types in the brackets of a named type.
* `TypeGraph.Endless`: a type in which a named type stands in its own brackets, round a circle.
* `TypeGraph.exists_tokens?`: without a circle of brackets in it, a type is written at some depth.
* `TypeGraph.tokens?_of_circle`: a type that leads into a circle is written at no depth.
* `TypeGraph.hasText_iff`: the types that have a text are those that are not endless.
* `TypeGraph.texts_end_iff`: all texts end exactly if there is no such circle, and the depth that
  is enough for them is fixed by the graph.
-/

namespace Understudy

/-- The types in the brackets behind the name of a `named` node: its `typeArgs`, or the constraints
of its `typeParams` if it has no arguments. -/
def TypeNode.bracketed : TypeNode → List TypeId
  | .named _ _ typeParams typeArgs _ =>
    if typeArgs = [] then typeParams.map (·.constraint) else typeArgs
  | _ => []

namespace TypeGraph

variable {g : TypeGraph}

/-- The type `b` stands in the brackets of the named type `a`. -/
def BracketedIn (g : TypeGraph) (b a : TypeId) : Prop :=
  ∃ node, g.get? a = some node ∧ b ∈ node.bracketed

/-- The type `b` is written as a part of the type `a`. -/
def PartOf (g : TypeGraph) (b a : TypeId) : Prop :=
  ∃ node, g.get? a = some node ∧ .type b ∈ g.parts node

/-- Among the types written for `id` there is one that stands in its own brackets, by itself or
through the brackets of others. -/
def Endless (g : TypeGraph) (id : TypeId) : Prop :=
  ∃ a, Relation.ReflTransGen g.PartOf a id ∧ Relation.TransGen g.BracketedIn a a

/-! ## Types in brackets -/

theorem mem_destutter_ne {l : List TypeId} {t : TypeId} : t ∈ l.destutter (· ≠ ·) ↔ t ∈ l := by
  cases l with
  | nil => rfl
  | cons a l =>
    rw [List.destutter_cons']
    induction l generalizing a with
    | nil => rfl
    | cons b l ih =>
      rw [List.destutter'_cons]
      by_cases hne : a ≠ b
      · rw [if_pos hne, List.mem_cons, ih, List.mem_cons (b := a)]
      · rw [if_neg hne, ih]
        simp [not_not.1 hne]

theorem type_mem_parts_iff {node : TypeNode} {t : TypeId} :
    .type t ∈ g.parts node ↔ t ∈ g.innerTypes node := by
  refine ⟨mem_innerTypes_of_mem_parts, fun h => ?_⟩
  have hmarks : TypePart.type t ∈ marks (g.parts node) := by
    rw [parts_marks]
    exact List.mem_append_right _ (List.mem_map_of_mem h)
  exact (List.mem_filter.1 hmarks).1

/-- A `node` that is written by name holds the types `node.bracketed` and no others. -/
theorem mem_bracketed_iff {node : TypeNode} (hname : node.aliased?.isSome) {t : TypeId} :
    .type t ∈ g.parts node ↔ t ∈ node.bracketed := by
  rw [type_mem_parts_iff]
  cases node with
  | named name package typeParams typeArgs underlying =>
    rw [innerTypes, TypeNode.bracketed]
    by_cases hargs : typeArgs = []
    · rw [if_pos hargs, if_pos hargs, mem_destutter_ne]
    · rw [if_neg hargs, if_neg hargs]
  | aliasOf name package target => rfl
  | _ => cases hname

theorem isSome_aliased?_of_bracketed {node : TypeNode} {t : TypeId} (h : t ∈ node.bracketed) :
    node.aliased?.isSome := by
  cases node with
  | named => rfl
  | _ => cases h

theorem partOf_of_bracketedIn {a b : TypeId} (h : g.BracketedIn b a) : g.PartOf b a := by
  obtain ⟨node, hnode, hb⟩ := h
  exact ⟨node, hnode, (mem_bracketed_iff (isSome_aliased?_of_bracketed hb)).2 hb⟩

/-! ## Without a circle -/

/-- There are only so many `TypeId`s, so a relation `r` without a circle comes to an end. -/
theorem wellFounded_of_acyclic {r : TypeId → TypeId → Prop}
    (h : ∀ id, ¬ Relation.TransGen r id id) : WellFounded r := by
  have hirrefl : Std.Irrefl (Relation.TransGen r) := ⟨h⟩
  have hwf := Finite.wellFounded_of_trans_of_irrefl (Relation.TransGen r)
  exact Subrelation.wf (fun hstep => .single hstep) hwf

/-- It is enough that there is no circle among the types that satisfy `P`, if steps do not lead out
of these: the relation is cut down to them. -/
theorem acc_of_acyclic {r : TypeId → TypeId → Prop} {P : TypeId → Prop}
    (hclosed : ∀ a b, P a → r b a → P b) (hacyclic : ∀ a, P a → ¬ Relation.TransGen r a a)
    {a : TypeId} (ha : P a) : Acc r a := by
  have hwf : WellFounded fun b a => r b a ∧ P a := by
    refine wellFounded_of_acyclic fun a hcircle => ?_
    obtain ⟨b, -, -, hPa⟩ := Relation.TransGen.tail'_iff.1 hcircle
    exact hacyclic a hPa (Relation.TransGen.mono (fun _ _ => And.left) _ _ hcircle)
  induction a using hwf.induction with
  | _ a ih => exact ⟨a, fun b hb => ih b ⟨hb, ha⟩ (hclosed a b ha hb)⟩

/-- Among the types written for one that is not `Endless`, the brackets come to an end. -/
theorem acc_of_not_endless {id : TypeId} (h : ¬ g.Endless id) (a : TypeId)
    (ha : Relation.ReflTransGen g.PartOf a id) : Acc g.BracketedIn a :=
  acc_of_acyclic (P := fun a => Relation.ReflTransGen g.PartOf a id)
    (fun _ _ hinside hb => .head (partOf_of_bracketedIn hb) hinside)
    (fun a hinside hcircle => h ⟨a, hinside, hcircle⟩) ha

theorem isSome_tokens?_of_le {active : List TypeId} {id : TypeId} {m n : Nat} (hmn : m ≤ n)
    (h : (g.tokens? m active id).isSome) : (g.tokens? n active id).isSome := by
  obtain ⟨ts, hts⟩ := Option.isSome_iff_exists.1 h
  exact Option.isSome_iff_exists.2 ⟨ts, (g.keeps_tokens active).le hmn hts⟩

/-- Types of `parts` that are each written at some depth are written together at the greatest of
these. -/
theorem exists_allTokens? {active : List TypeId} {parts : List TypePart}
    (h : ∀ t, .type t ∈ parts → ∃ n, (g.tokens? n active t).isSome) :
    ∃ n, (TypePart.allTokens? (g.tokens? n active) parts).isSome := by
  simp only [allTokens?_isSome_iff]
  induction parts with
  | nil => exact ⟨0, nofun⟩
  | cons part rest ih =>
    obtain ⟨n, hn⟩ := ih fun t ht => h t (List.mem_cons_of_mem _ ht)
    by_cases htype : ∃ t, part = .type t
    · obtain ⟨t, rfl⟩ := htype
      obtain ⟨m, hm⟩ := h t List.mem_cons_self
      refine ⟨max m n, fun u hu => ?_⟩
      rcases List.mem_cons.1 hu with heq | hu
      · cases heq
        exact isSome_tokens?_of_le (Nat.le_max_left m n) hm
      · exact isSome_tokens?_of_le (Nat.le_max_right m n) (hn u hu)
    · refine ⟨n, fun u hu => ?_⟩
      rcases List.mem_cons.1 hu with heq | hu
      · exact absurd ⟨u, heq.symm⟩ htype
      · exact hn u hu

/-- The induction is on the types that are not in `active` and can still be written out, and for
each number of them on `g.BracketedIn`, how far a name is from the innermost brackets: what is
written by name keeps the first and comes closer to these, and what is written out takes one type
away. -/
theorem exists_tokens? {id : TypeId}
    (h : ∀ a, Relation.ReflTransGen g.PartOf a id → Acc g.BracketedIn a) (active : List TypeId) :
    ∃ n, (g.tokens? n active id).isSome := by
  induction hfree : (g.inactive active).length using Nat.strong_induction_on
    generalizing active id with
  | _ free ihfree =>
  have hid := h id .refl
  induction hid with
  | intro id _ ihname =>
  cases hnode : g.get? id with
  | none => exact ⟨1, by simp [tokens?, hnode]⟩
  | some node =>
    by_cases hactive : id ∈ active
    · exact ⟨1, by simp [tokens?, hnode, hactive]⟩
    have hinner : ∀ t, .type t ∈ g.parts node →
        ∃ n, (g.tokens? n (node.enter id active) t).isSome := by
      intro t ht
      have hbelow : ∀ a, Relation.ReflTransGen g.PartOf a t → Acc g.BracketedIn a :=
        fun a ha => h a (ha.tail ⟨node, hnode, ht⟩)
      unfold TypeNode.enter
      split
      · rename_i hname
        exact ihname t ⟨node, hnode, (mem_bracketed_iff hname).1 ht⟩ hbelow
      · have hless := length_inactive_cons (mem_ids_of_get? hnode) hactive
        rw [hfree] at hless
        exact ihfree _ hless hbelow (id :: active) rfl
    obtain ⟨n, hn⟩ := exists_allTokens? hinner
    exact ⟨n + 1, by simpa [tokens?, hnode, hactive] using hn⟩

/-! ## On a circle -/

theorem tokens?_succ_eq_none {active : List TypeId} {id t : TypeId} {node : TypeNode} {n : Nat}
    (hnode : g.get? id = some node) (hid : id ∉ active) (ht : .type t ∈ g.parts node)
    (h : g.tokens? n (node.enter id active) t = none) : g.tokens? (n + 1) active id = none := by
  simp only [tokens?, hnode, if_neg hid]
  by_contra hsome
  have hwritten := allTokens?_isSome_iff.1 (Option.isSome_iff_ne_none.2 hsome) t ht
  rw [h] at hwritten
  cases hwritten

/-- A way from `id` into itself and on to `a` has a last step out of `id`. What comes behind that
step avoids `id` too. -/
theorem exists_last_step {active : List TypeId} {a id : TypeId}
    (h : Relation.ReflTransGen (fun b c => g.PartOf b c ∧ b ∉ active) a id) (hne : a ≠ id) :
    ∃ t, g.PartOf t id ∧ t ∉ id :: active ∧
      Relation.ReflTransGen (fun b c => g.PartOf b c ∧ b ∉ id :: active) a t := by
  induction h using Relation.ReflTransGen.head_induction_on with
  | refl => exact absurd rfl hne
  | @head a b hab _ ih =>
    have ha : a ∉ id :: active := List.not_mem_cons_of_ne_of_not_mem hne hab.2
    by_cases hb : b = id
    · subst hb
      exact ⟨a, hab.1, ha, .refl⟩
    · obtain ⟨t, ht, hout, hway⟩ := ih hb
      exact ⟨t, ht, hout, .head ⟨hab.1, ha⟩ hway⟩

theorem names_of_circle {a : TypeId} (h : Relation.TransGen g.BracketedIn a a) :
    ∃ b, g.Names a b := by
  obtain ⟨next, -, node, hnode, hnext⟩ := Relation.TransGen.tail'_iff.1 h
  obtain ⟨b, hb⟩ := Option.isSome_iff_exists.1 (isSome_aliased?_of_bracketed hnext)
  exact ⟨b, node, hnode, hb⟩

/-- The type `a` is on a circle of brackets, and `id` leads to it by types that are not active. One
step leads to such types again: on round the circle, into the brackets of another name, or out of a
type that is written out, for the last time. Names are never active, so nothing on the circle is cut
short. -/
theorem tokens?_of_circle {active : List TypeId} {a id : TypeId}
    (hway : Relation.ReflTransGen (fun b c => g.PartOf b c ∧ b ∉ active) a id)
    (hcircle : Relation.TransGen g.BracketedIn a a) (hid : id ∉ active)
    (hactive : ∀ c ∈ active, ∀ b, ¬ g.Names c b) (n : Nat) : g.tokens? n active id = none := by
  induction n generalizing active a id with
  | zero => rfl
  | succ n ih =>
    rcases Relation.ReflTransGen.cases_tail hway with rfl | ⟨t, hat, ⟨node, hnode, ht⟩, hout⟩
    · obtain ⟨next, hback, node, hnode, hnext⟩ := Relation.TransGen.tail'_iff.1 hcircle
      have hname := isSome_aliased?_of_bracketed hnext
      have hround : Relation.TransGen g.BracketedIn next next :=
        .head' ⟨node, hnode, hnext⟩ hback
      obtain ⟨b, hb⟩ := names_of_circle hround
      refine tokens?_succ_eq_none hnode hid ((mem_bracketed_iff hname).2 hnext) ?_
      rw [TypeNode.enter, if_pos hname]
      exact ih .refl hround (fun hmem => hactive next hmem b hb) hactive
    · by_cases hname : node.aliased?.isSome
      · refine tokens?_succ_eq_none hnode hid ht ?_
        rw [TypeNode.enter, if_pos hname]
        exact ih hat hcircle hout hactive
      · have hunnamed : ∀ b, ¬ g.Names id b := by
          rintro b ⟨node', hnode', hb⟩
          obtain rfl := Option.some.inj (hnode.symm.trans hnode')
          exact hname (Option.isSome_iff_exists.2 ⟨b, hb⟩)
        have hne : a ≠ id := by
          rintro rfl
          obtain ⟨b, hb⟩ := names_of_circle hcircle
          exact hunnamed b hb
        obtain ⟨u, ⟨node', hnode', hu⟩, hout, hway⟩ := exists_last_step hway hne
        obtain rfl := Option.some.inj (hnode.symm.trans hnode')
        refine tokens?_succ_eq_none hnode hid hu ?_
        rw [TypeNode.enter, if_neg hname]
        exact ih hway hcircle hout (List.forall_mem_cons.2 ⟨hunnamed, hactive⟩)

/-! ## Types that have a text -/

theorem tokens?_of_endless {id : TypeId} (h : g.Endless id) (n : Nat) :
    g.tokens? n [] id = none := by
  obtain ⟨a, hway, hcircle⟩ := h
  have hfree : Relation.ReflTransGen (fun b c => g.PartOf b c ∧ b ∉ []) a id :=
    Relation.ReflTransGen.mono (fun _ _ hpart => ⟨hpart, List.not_mem_nil⟩) _ _ hway
  exact tokens?_of_circle hfree hcircle List.not_mem_nil
    (fun c hc => absurd hc List.not_mem_nil) n

/-- `id` has a text exactly if it is not `Endless`: no named type inside it stands in its own
brackets. -/
theorem hasText_iff {id : TypeId} : g.hasText id = true ↔ ¬ g.Endless id := by
  rw [hasText_eq]
  constructor
  · intro hsome hendless
    rw [tokens?_of_endless hendless] at hsome
    cases hsome
  · intro h
    obtain ⟨n, hn⟩ := exists_tokens? (acc_of_not_endless h) []
    obtain ⟨ts, hts⟩ := Option.isSome_iff_exists.1 hn
    exact Option.isSome_iff_exists.2 ⟨ts, tokens?_depth_iff.2 ⟨n, hts⟩⟩

/-- No depth `n` is enough to write an `Endless` type, through whatever `q`. -/
theorem write?_of_endless {σ : Type} {id : TypeId} (h : g.Endless id) (q : Qualifier σ) (n : Nat)
    (s : σ) : g.write? q n [] id s = none := by
  rw [write?_eq, tokens?_of_endless h, Option.map_none]

theorem not_endless_of_acyclic (h : ∀ a, ¬ Relation.TransGen g.BracketedIn a a) (id : TypeId) :
    ¬ g.Endless id := by
  rintro ⟨a, -, hcircle⟩
  exact h a hcircle

/-! ## All texts -/

theorem keeps_allTokens {active : List TypeId} {parts : List TypePart} {m n : Nat} (hmn : m ≤ n)
    {ts : List Token} (h : TypePart.allTokens? (g.tokens? m active) parts = some ts) :
    TypePart.allTokens? (g.tokens? n active) parts = some ts :=
  allTokens?_mono (fun _ _ => (g.keeps_tokens active).le hmn) h

/-- Every type and every signature is written to its end, through every qualifier, exactly if no
named types stand in the brackets of each other round a circle. There are then at most `g.depth`
types inside one another, and to allow for more changes nothing. -/
theorem texts_end_iff (g : TypeGraph) :
    (∀ id, ¬ Relation.TransGen g.BracketedIn id id) ↔
      ∀ (σ : Type) (q : Qualifier σ) (id : TypeId) (s : σ),
        (∃ r, g.typeText? q id s = some r ∧
          ∀ n, g.depth ≤ n → g.write? q n [] id s = some r) ∧
        (∃ r, g.signatureText? q id s = some r ∧
          ∀ n, g.depth ≤ n →
            writeParts? q (g.write? q n []) (g.signatureParts id) s = some r) := by
  constructor
  · intro hcircle σ q id s
    have hends : ∀ id, (g.tokens? g.depth [] id).isSome := fun id =>
      (g.hasText_eq id).symm.trans (hasText_iff.2 (not_endless_of_acyclic hcircle id))
    constructor
    · obtain ⟨ts, hts⟩ := Option.isSome_iff_exists.1 (hends id)
      refine ⟨Token.spell q ts s, by rw [typeText?_eq, hts, Option.map_some], fun n hn => ?_⟩
      rw [write?_eq, (g.keeps_tokens []).le hn hts, Option.map_some]
    · obtain ⟨ts, hts⟩ := Option.isSome_iff_exists.1
        (allTokens?_isSome_iff.2 fun t (_ : .type t ∈ g.signatureParts id) => hends t)
      refine ⟨Token.spell q ts s, ?_, fun n hn => ?_⟩
      · rw [signatureText?_eq, signatureTokens?, hts, Option.map_some]
      · rw [writeParts?_eq fun t s => g.write?_eq q n [] t s, keeps_allTokens hn hts,
          Option.map_some]
  · intro hends id hcircle
    obtain ⟨⟨r, hr, -⟩, -⟩ := hends Unit .fullPath id ()
    rw [typeText?, write?_of_endless ⟨id, .refl, hcircle⟩] at hr
    cases hr

end TypeGraph

end Understudy
