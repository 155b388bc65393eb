import Mathlib.Data.List.Induction
import Mathlib.Data.List.Pairwise
import Mathlib.Data.List.Sort
import Understudy.Path.Table

/-!
# Tables keyed by path as maps

Paths are ordered by their components, and a table in ascending order holds one entry for each list
of components. So a table is known once its entries are, and one that is filled item by item holds,
at every path, what the items of that path add up to, under the spelling that came first.

* `Path.compare_eq_iff`: paths compare equal exactly if they have the same components.
* `Path.Table.Ascending.ext`: tables with the same entries are the same table.
* `Path.Table.mem_alter`: the entries after a change at one path.
* `Path.Table.mem_gather`: the entries of a table that is filled item by item.
* `Path.Table.IsUnion`: a table that holds the entries of several tables.
-/

namespace Understudy.Path

/-! ## The order of paths -/

namespace Component

instance : Std.TransOrd Component :=
  inferInstanceAs (Std.TransCmp (compareLex (compareOn rank) (compareOn text)))

theorem eq_of_rank_text {a b : Component} (hrank : a.rank = b.rank) (htext : a.text = b.text) :
    a = b := by
  cases a <;> cases b <;> simp_all [rank, text]

instance : Std.LawfulEqOrd Component where
  eq_of_compare {a b} h := by
    obtain ⟨hrank, htext⟩ := Ordering.then_eq_eq.1 h
    exact eq_of_rank_text (Std.LawfulEqCmp.eq_of_compare hrank)
      (Std.LawfulEqCmp.eq_of_compare htext)

end Component

theorem compare_def (p q : Path) : compare p q = compare p.components q.components := rfl

theorem compare_eq_iff {p q : Path} : compare p q = .eq ↔ p.components = q.components := by
  rw [compare_def]
  exact Std.LawfulEqCmp.compare_eq_iff_eq

instance : Std.TransOrd Path :=
  inferInstanceAs (Std.TransCmp (compareOn components))

theorem components_ne_of_lt {p q : Path} (h : compare p q = .lt) :
    p.components ≠ q.components := by
  intro heq
  rw [compare_eq_iff.2 heq] at h
  cases h

theorem components_ne_of_gt {p q : Path} (h : compare p q = .gt) :
    p.components ≠ q.components :=
  fun heq => components_ne_of_lt (Std.OrientedCmp.lt_of_gt h) heq.symm

namespace Table

variable {α β : Type}

/-! ## Ascending tables -/

/-- The entries of `t` stand in the order of their paths, and no two of them at the same path. -/
def Ascending (t : Table α) : Prop :=
  t.Pairwise fun a b => compare a.1 b.1 = .lt

theorem Ascending.ext {t u : Table α} (ht : t.Ascending) (hu : u.Ascending)
    (h : ∀ e, e ∈ t ↔ e ∈ u) : t = u := by
  have hirrefl : Std.Irrefl fun a b : Path × α => compare a.1 b.1 = .lt :=
    ⟨fun a hlt => components_ne_of_lt hlt rfl⟩
  have hantisymm : Std.Antisymm fun a b : Path × α => compare a.1 b.1 = .lt :=
    ⟨fun a b hab hba => absurd (Std.TransCmp.lt_trans hab hba) (hirrefl.irrefl a)⟩
  exact List.Pairwise.eq_of_mem_iff ht hu h

theorem Ascending.eq_of_components {t : Table α} (ht : t.Ascending) {e e' : Path × α}
    (he : e ∈ t) (he' : e' ∈ t) (h : e.1.components = e'.1.components) : e = e' := by
  have hne : t.Pairwise fun a b => a.1.components ≠ b.1.components := ht.imp components_ne_of_lt
  have : Std.Symm fun a b : Path × α => a.1.components ≠ b.1.components := ⟨fun _ _ h => h.symm⟩
  by_contra hdistinct
  exact hne.forall he he' hdistinct h

/-- The entries after a change at `p`: those at other paths, and the one at `p`, spelled as before
if there was one. -/
theorem mem_alter {t : Table α} (ht : t.Ascending) {p : Path} {f : Option α → α} {e : Path × α} :
    e ∈ t.alter p f ↔
      (e ∈ t ∧ e.1.components ≠ p.components) ∨
      (∃ a, (e.1, a) ∈ t ∧ e.1.components = p.components ∧ e.2 = f (some a)) ∨
      (e = (p, f none) ∧ ∀ e' ∈ t, e'.1.components ≠ p.components) := by
  induction t with
  | nil => simp [alter]
  | cons first rest ih =>
    obtain ⟨q, a⟩ := first
    obtain ⟨hfirst, hrest⟩ := List.pairwise_cons.1 ht
    rw [alter]
    split
    · rename_i hlt
      have hq : q.components ≠ p.components := (components_ne_of_lt hlt).symm
      have hrest_ne : ∀ e' ∈ rest, e'.1.components ≠ p.components := fun e' he' =>
        (components_ne_of_lt (Std.TransCmp.lt_trans hlt (hfirst e' he'))).symm
      grind
    · rename_i heq
      have hq : q.components = p.components := (compare_eq_iff.1 heq).symm
      have hrest_ne : ∀ e' ∈ rest, e'.1.components ≠ p.components := fun e' he' =>
        hq ▸ (components_ne_of_lt (hfirst e' he')).symm
      constructor
      · intro h
        rcases List.mem_cons.1 h with rfl | h
        · exact .inr (.inl ⟨a, List.mem_cons_self, hq, rfl⟩)
        · exact .inl ⟨List.mem_cons_of_mem _ h, hrest_ne e h⟩
      · rintro (⟨h, hne⟩ | ⟨b, h, heq, hvalue⟩ | ⟨-, hnone⟩)
        · rcases List.mem_cons.1 h with rfl | h
          · exact absurd hq hne
          · exact List.mem_cons_of_mem _ h
        · rcases List.mem_cons.1 h with h | h
          · obtain ⟨hkey, rfl⟩ := Prod.mk.inj h
            exact List.mem_cons.2 (.inl (Prod.ext hkey hvalue))
          · exact absurd heq (hrest_ne (e.1, b) h)
        · exact absurd hq (hnone _ List.mem_cons_self)
    · rename_i hgt
      have hq : q.components ≠ p.components := (components_ne_of_gt hgt).symm
      rw [List.mem_cons, ih hrest]
      grind

theorem Ascending.alter {t : Table α} (ht : t.Ascending) (p : Path) (f : Option α → α) :
    (t.alter p f).Ascending := by
  induction t with
  | nil => exact List.pairwise_singleton _ _
  | cons first rest ih =>
    obtain ⟨q, a⟩ := first
    obtain ⟨hfirst, hrest⟩ := List.pairwise_cons.1 ht
    rw [Table.alter]
    split
    · rename_i hlt
      refine List.pairwise_cons.2 ⟨?_, ht⟩
      intro e he
      rcases List.mem_cons.1 he with rfl | he
      · exact hlt
      · exact Std.TransCmp.lt_trans hlt (hfirst e he)
    · exact List.pairwise_cons.2 ⟨hfirst, hrest⟩
    · rename_i hgt
      refine List.pairwise_cons.2 ⟨?_, ih hrest⟩
      intro e he
      rcases (mem_alter hrest).1 he with ⟨he, -⟩ | ⟨b, hb, -, -⟩ | ⟨rfl, -⟩
      · exact hfirst e he
      · exact hfirst (e.1, b) hb
      · exact Std.OrientedCmp.lt_of_gt hgt

theorem find?_eq_some {t : Table α} (ht : t.Ascending) {p : Path} {a : α} :
    t.find? p = some a ↔ ∃ q, (q, a) ∈ t ∧ q.components = p.components := by
  induction t with
  | nil => simp [find?]
  | cons first rest ih =>
    obtain ⟨q, b⟩ := first
    obtain ⟨hfirst, hrest⟩ := List.pairwise_cons.1 ht
    rw [find?]
    split
    · rename_i heq
      have hq : q.components = p.components := (compare_eq_iff.1 heq).symm
      constructor
      · intro h
        cases h
        exact ⟨q, List.mem_cons_self, hq⟩
      · rintro ⟨r, hr, hcomponents⟩
        have := ht.eq_of_components hr List.mem_cons_self (hcomponents.trans hq.symm)
        rw [(Prod.mk.inj this).2]
    · rename_i hne
      have hq : q.components ≠ p.components := fun heq => hne (compare_eq_iff.2 heq.symm)
      rw [ih hrest]
      constructor
      · rintro ⟨r, hr, hcomponents⟩
        exact ⟨r, List.mem_cons_of_mem _ hr, hcomponents⟩
      · rintro ⟨r, hr, hcomponents⟩
        rcases List.mem_cons.1 hr with hr | hr
        · obtain ⟨rfl, -⟩ := Prod.mk.inj hr
          exact absurd hcomponents hq
        · exact ⟨r, hr, hcomponents⟩

/-! ## Filling a table item by item -/

/-- Adds `items` to the entries at their paths, one after the other. -/
def gather (path : β → Path) (add : Option α → β → α) (items : List β) : Table α :=
  items.foldl (fun t b => t.alter (path b) fun a? => add a? b) []

/-- Those of `items` that are at the path `p`. -/
def itemsAt (path : β → Path) (items : List β) (p : Path) : List β :=
  items.filter fun b => (path b).components = p.components

/-- What `first` and `rest` add up to. `first` finds nothing there. -/
def sum (add : Option α → β → α) (first : β) (rest : List β) : α :=
  rest.foldl (fun a b => add (some a) b) (add none first)

variable {path : β → Path} {add : Option α → β → α}

theorem gather_append_singleton (items : List β) (b : β) :
    gather path add (items ++ [b]) =
      (gather path add items).alter (path b) fun a? => add a? b := by
  simp [gather]

theorem ascending_gather (path : β → Path) (add : Option α → β → α) (items : List β) :
    (gather path add items).Ascending := by
  induction items using List.reverseRecOn with
  | nil => exact .nil
  | append_singleton items b ih =>
    rw [gather_append_singleton]
    exact ih.alter _ _

theorem itemsAt_congr {p q : Path} (h : p.components = q.components) (items : List β) :
    itemsAt path items p = itemsAt path items q := by
  simp [itemsAt, h]

theorem itemsAt_append_singleton_of_eq {p : Path} {b : β}
    (h : (path b).components = p.components) (items : List β) :
    itemsAt path (items ++ [b]) p = itemsAt path items p ++ [b] := by
  simp [itemsAt, h]

theorem itemsAt_append_singleton_of_ne {p : Path} {b : β}
    (h : (path b).components ≠ p.components) (items : List β) :
    itemsAt path (items ++ [b]) p = itemsAt path items p := by
  simp [itemsAt, h]

theorem sum_append_singleton (first b : β) (rest : List β) :
    sum add first (rest ++ [b]) = add (some (sum add first rest)) b := by
  simp [sum]

theorem components_of_itemsAt_eq_cons {items : List β} {p : Path} {first : β} {rest : List β}
    (h : itemsAt path items p = first :: rest) : (path first).components = p.components := by
  have hmem : first ∈ itemsAt path items p := h ▸ List.mem_cons_self
  simpa [itemsAt] using (List.mem_filter.1 hmem).2

/-- At every path of `gather` stands what the items of that path add up to, under the path of the
first. -/
theorem mem_gather {items : List β} {e : Path × α} :
    e ∈ gather path add items ↔
      ∃ first rest, itemsAt path items e.1 = first :: rest ∧
        e = (path first, sum add first rest) := by
  induction items using List.reverseRecOn generalizing e with
  | nil => simp [gather, itemsAt]
  | append_singleton items b ih =>
    rw [gather_append_singleton, mem_alter (ascending_gather path add items)]
    by_cases hb : (path b).components = e.1.components
    · rw [itemsAt_append_singleton_of_eq hb]
      cases hitems : itemsAt path items e.1 with
      | nil =>
        -- nothing was there, so `b` starts the entry
        have hnone : ∀ e' ∈ gather path add items, e'.1.components ≠ (path b).components := by
          intro e' he' heq
          obtain ⟨_, _, hcons, -⟩ := ih.1 he'
          rw [itemsAt_congr (heq.trans hb), hitems] at hcons
          cases hcons
        constructor
        · rintro (⟨-, hne⟩ | ⟨a, ha, -, -⟩ | ⟨rfl, -⟩)
          · exact absurd hb.symm hne
          · exact absurd hb.symm (hnone (e.1, a) ha)
          · exact ⟨b, [], rfl, rfl⟩
        · rintro ⟨first, rest, hcons, he⟩
          cases hcons
          exact .inr (.inr ⟨he, hnone⟩)
      | cons first rest =>
        have hfirst := components_of_itemsAt_eq_cons hitems
        have hmem : (path first, sum add first rest) ∈ gather path add items :=
          ih.2 ⟨first, rest, (itemsAt_congr hfirst items).trans hitems, rfl⟩
        constructor
        · rintro (⟨-, hne⟩ | ⟨a, ha, -, hvalue⟩ | ⟨-, hnone⟩)
          · exact absurd hb.symm hne
          · obtain ⟨hkey, rfl⟩ := Prod.mk.inj
              ((ascending_gather path add items).eq_of_components ha hmem hfirst.symm)
            exact ⟨first, rest ++ [b], rfl, Prod.ext hkey (by rw [hvalue, sum_append_singleton])⟩
          · exact absurd (hfirst.trans hb.symm) (hnone _ hmem)
        · rintro ⟨first', rest', hcons, rfl⟩
          obtain ⟨rfl, rfl⟩ := List.cons.inj hcons
          exact .inr (.inl ⟨_, hmem, hb.symm, sum_append_singleton _ _ _⟩)
    · rw [itemsAt_append_singleton_of_ne hb, ← ih]
      constructor
      · rintro (⟨he, -⟩ | ⟨_, -, heq, -⟩ | ⟨rfl, -⟩)
        · exact he
        · exact absurd heq.symm hb
        · exact absurd rfl hb
      · exact fun he => .inl ⟨he, fun heq => hb heq.symm⟩

end Table

end Understudy.Path
