import Understudy.Proofs.Endings

/-!
# Chains of names

A named type stands for its underlying type and an alias for its target, either of which can be a
name again. Such a chain comes to a type that is no name, or it leaves the graph, or it goes round
in a circle, perhaps behind some steps that lead into it. There is nothing else, since no step has
two outcomes and there are only so many types. The bound on the steps depends on the size of the
graph alone and never decides which of the three it is.

* `TypeGraph.StandsFor`, `TypeGraph.Ends`: a step of a chain, and a type at which a chain ends.
* `TypeGraph.Dangles`, `TypeGraph.Loops`: the chains without an end.
* `TypeGraph.exists_end`: a chain that neither dangles nor loops has an end.
* `TypeGraph.underlying_follows_chain`: what a type stands for.
-/

namespace Understudy.TypeGraph

variable {g : TypeGraph} {a b c t : TypeId}

/-- One step of a chain: from a `named` type to its underlying type, or from an alias to its
target. -/
inductive StandsFor (g : TypeGraph) (a b : TypeId) : Prop
  | named {name : String} {package : Option PackageRef} {typeParams : List TypeParamSpec}
      {typeArgs : List TypeId} (h : g.get? a = some (.named name package typeParams typeArgs b))
  | aliasOf {name : String} {package : Option PackageRef}
      (h : g.get? a = some (.aliasOf name package b))

/-- `a` is in range and neither a named type nor an alias. -/
def Ends (g : TypeGraph) (a : TypeId) : Prop :=
  a.toNat < g.size ∧ ∀ b, ¬ g.StandsFor a b

/-- The chain from `a` comes to a number out of range. -/
def Dangles (g : TypeGraph) (a : TypeId) : Prop :=
  ∃ b, Relation.ReflTransGen g.StandsFor a b ∧ g.size ≤ b.toNat

/-- The chain from `a` comes to a type that leads back to itself. -/
def Loops (g : TypeGraph) (a : TypeId) : Prop :=
  ∃ b, Relation.ReflTransGen g.StandsFor a b ∧ Relation.TransGen g.StandsFor b b

/-! ## One step -/

theorem standsFor_iff_names : g.StandsFor a b ↔ g.Names a b := by
  constructor
  · rintro (⟨h⟩ | ⟨h⟩)
    · exact ⟨_, h, rfl⟩
    · exact ⟨_, h, rfl⟩
  · rintro ⟨node, hnode, haliased⟩
    cases node with
    | named name package typeParams typeArgs underlying =>
      obtain rfl := Option.some.inj haliased
      exact .named hnode
    | aliasOf name package target =>
      obtain rfl := Option.some.inj haliased
      exact .aliasOf hnode
    | _ => cases haliased

theorem StandsFor.unique (hb : g.StandsFor a b) (hc : g.StandsFor a c) : b = c := by
  obtain ⟨node, hnode, hb⟩ := standsFor_iff_names.1 hb
  obtain ⟨node', hnode', hc⟩ := standsFor_iff_names.1 hc
  obtain rfl : node = node' := Option.some.inj (hnode.symm.trans hnode')
  exact Option.some.inj (hb.symm.trans hc)

theorem StandsFor.lt_size (h : g.StandsFor a b) : a.toNat < g.size := by
  obtain ⟨node, hnode, -⟩ := standsFor_iff_names.1 h
  exact (Array.getElem?_eq_some_iff.1 hnode).1

theorem ends_iff_unnamed : g.Ends a ↔ g.Unnamed a := by
  constructor
  · rintro ⟨hlt, hend⟩
    obtain ⟨node, hnode⟩ : ∃ node, g.get? a = some node :=
      ⟨_, Array.getElem?_eq_some_iff.2 ⟨hlt, rfl⟩⟩
    refine ⟨node, hnode, Option.eq_none_iff_forall_ne_some.2 fun b hb => ?_⟩
    exact hend b (standsFor_iff_names.2 ⟨node, hnode, hb⟩)
  · rintro ⟨node, hnode, haliased⟩
    refine ⟨(Array.getElem?_eq_some_iff.1 hnode).1, fun b hb => ?_⟩
    obtain ⟨node', hnode', hb⟩ := standsFor_iff_names.1 hb
    obtain rfl : node = node' := Option.some.inj (hnode.symm.trans hnode')
    rw [haliased] at hb
    cases hb

/-! ## Whole chains -/

/-- No step has two outcomes, so the end `t` of a chain lies ahead of all its types `b`. -/
theorem Ends.ahead (ht : g.Ends t) (hat : Relation.ReflTransGen g.StandsFor a t)
    (hab : Relation.ReflTransGen g.StandsFor a b) : Relation.ReflTransGen g.StandsFor b t := by
  have hunique : Relator.RightUnique g.StandsFor := fun _ _ _ hb hc => hb.unique hc
  rcases Relation.ReflTransGen.total_of_right_unique hunique hat hab with htb | hbt
  · rcases Relation.ReflTransGen.cases_head htb with rfl | ⟨c, hc, -⟩
    · exact .refl
    · exact absurd hc (ht.2 c)
  · exact hbt

/-- A chain does not leave the circle of `a` when it has come to it. -/
theorem transGen_self_ahead (hcircle : Relation.TransGen g.StandsFor a a)
    (hab : Relation.ReflTransGen g.StandsFor a b) : Relation.TransGen g.StandsFor b b := by
  induction hab with
  | refl => exact hcircle
  | @tail b c _ hbc ih =>
    obtain ⟨d, hbd, hdb⟩ := Relation.TransGen.head'_iff.1 ih
    obtain rfl := hbc.unique hbd
    exact .tail' hdb hbc

theorem Ends.not_dangles (ht : g.Ends t) (hat : Relation.ReflTransGen g.StandsFor a t) :
    ¬ g.Dangles a := by
  rintro ⟨b, hab, hout⟩
  rcases Relation.ReflTransGen.cases_head (ht.ahead hat hab) with rfl | ⟨c, hc, -⟩
  · exact Nat.not_lt.2 hout ht.1
  · exact Nat.not_lt.2 hout hc.lt_size

theorem Ends.not_loops (ht : g.Ends t) (hat : Relation.ReflTransGen g.StandsFor a t) :
    ¬ g.Loops a := by
  rintro ⟨b, hab, hcircle⟩
  obtain ⟨c, hc, -⟩ := Relation.TransGen.head'_iff.1
    (transGen_self_ahead hcircle (ht.ahead hat hab))
  exact ht.2 c hc

/-- A chain that stays in the graph and does not come back to a type has an end. The induction is
backwards along the steps that can be taken from `a`, among which there is no circle. -/
theorem exists_end (hdangles : ¬ g.Dangles a) (hloops : ¬ g.Loops a) :
    ∃ t, Relation.ReflTransGen g.StandsFor a t ∧ g.Ends t := by
  let ahead (c b : TypeId) : Prop := Relation.ReflTransGen g.StandsFor a b ∧ g.StandsFor b c
  have hwf : WellFounded ahead := by
    refine wellFounded_of_acyclic fun b hcircle => hloops ⟨b, ?_, ?_⟩
    · obtain ⟨c, -, hcb⟩ := Relation.TransGen.tail'_iff.1 hcircle
      exact hcb.1
    · exact Relation.transGen_swap.1 (Relation.TransGen.mono (fun _ _ h => h.2) _ _ hcircle)
  suffices ∀ b, Relation.ReflTransGen g.StandsFor a b →
      ∃ t, Relation.ReflTransGen g.StandsFor a t ∧ g.Ends t from this a .refl
  intro b
  induction b using hwf.induction with
  | _ b ih =>
    intro hab
    by_cases hstep : ∃ c, g.StandsFor b c
    · obtain ⟨c, hbc⟩ := hstep
      exact ih c ⟨hab, hbc⟩ (hab.tail hbc)
    · have hlt : b.toNat < g.size := Nat.not_le.1 fun hout => hdangles ⟨b, hab, hout⟩
      exact ⟨b, hab, hlt, not_exists.1 hstep⟩

theorem underlying?_eq_some_iff_ends :
    g.underlying? a = some t ↔ Relation.ReflTransGen g.StandsFor a t ∧ g.Ends t := by
  have hsteps : g.StandsFor = g.Names := by
    funext a b
    exact propext standsFor_iff_names
  rw [underlying?_eq_some_iff, ends_iff_unnamed, hsteps]

/-- `g.underlying? a` is the type `t` at which the chain of `StandsFor` from `a` ends, after however
many steps. There is none exactly if the chain `Dangles` or `Loops`. -/
theorem underlying_follows_chain (g : TypeGraph) (a : TypeId) :
    (∀ t, g.underlying? a = some t ↔ Relation.ReflTransGen g.StandsFor a t ∧ g.Ends t) ∧
      (g.underlying? a = none ↔ g.Dangles a ∨ g.Loops a) := by
  refine ⟨fun t => underlying?_eq_some_iff_ends, ?_, ?_⟩
  · intro hnone
    by_contra hneither
    obtain ⟨hdangles, hloops⟩ := not_or.1 hneither
    obtain ⟨t, hchain⟩ := exists_end hdangles hloops
    rw [underlying?_eq_some_iff_ends.2 hchain] at hnone
    cases hnone
  · intro hendless
    refine Option.eq_none_iff_forall_ne_some.2 fun t hsome => ?_
    obtain ⟨hchain, ht⟩ := underlying?_eq_some_iff_ends.1 hsome
    exact hendless.elim (ht.not_dangles hchain) (ht.not_loops hchain)

end Understudy.TypeGraph
