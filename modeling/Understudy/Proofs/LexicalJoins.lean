import Mathlib.Data.List.Infix
import Understudy.Proofs.Cleaning

/-!
# Lexical joins

What is put below a directory counts as a list of steps, upwards or to a name; a root or a `.` at
its start is no step. The steps are taken one after the other on what is left of the directory, so a
join over two texts is one join and then another, and the directory stays as long as no step goes up
from it.

* `Path.steps`, `Path.joinClean_eq`: the steps of a text, and a join by its steps.
* `Path.joinClean_joinClean`: joins compose, and a joined path is clean.
* `Path.Settled.exists_eq`: the root or steps upwards, and then names.
* `Path.StaysBelow`, `Path.foldl_resolve_of_staysBelow`: steps that never go above where they start
  leave all that was there before.
* `Path.components_joinClean_contained`: what a joined path is made of, and when it lies below its
  directory.
-/

namespace Understudy.Path

/-! ## Steps -/

/-- The steps that `rel` stands for below a directory: upwards, or to a name. -/
def steps (rel : String) : List Component :=
  (segments rel.toList).filterMap Component.ofSegment?

theorem components_eq (rel : String) :
    (Path.mk rel).components = Component.lead rel.toList ++ steps rel := rfl

theorem root_not_mem_steps (rel : String) : .root ∉ steps rel :=
  fun h => (plain_of_mem_filterMap h).ne_root rfl

/-- A slash between `a` and `b` parts their `steps`, whatever they begin and end with. -/
theorem steps_append_slash (a b : String) : steps (a ++ "/" ++ b) = steps a ++ steps b := by
  have htext : (a ++ "/" ++ b).toList = a.toList ++ '/' :: b.toList := by simp
  rw [steps, htext, segments_append_slash, List.filterMap_append]
  rfl

/-- The start of a text is no step: a root is left out, and a `.` changes nothing. -/
theorem foldl_resolve_components (done : List Component) (rel : String) :
    ((Path.mk rel).components.filter (· ≠ .root)).foldl Component.resolve done =
      (steps rel).foldl Component.resolve done := by
  have hsteps : (steps rel).filter (· ≠ .root) = steps rel := by
    refine List.filter_eq_self.2 fun c hc => ?_
    have hne : c ≠ .root := fun h => root_not_mem_steps rel (h ▸ hc)
    simpa using hne
  rw [components_eq, List.filter_append, hsteps]
  rcases lead_cases rel.toList with hlead | hlead | hlead <;> rw [hlead] <;> rfl

/-- `clean` goes on with `ds` from what it leaves of `cs`. -/
theorem clean_append (cs ds : List Component) :
    clean (cs ++ ds) = (ds.foldl Component.resolve (clean cs).reverse).reverse := by
  simp [clean]

theorem clean_append_components (cs : List Component) (rel : String) :
    clean (cs ++ (Path.mk rel).components.filter (· ≠ .root)) = clean (cs ++ steps rel) := by
  rw [clean_append, clean_append, foldl_resolve_components]

theorem joinClean_eq (dir : Path) (rel : String) :
    dir.joinClean rel = ofComponents (clean (dir.components ++ steps rel)) := by
  rw [joinClean, clean_append_components]

theorem components_joinClean_eq (dir : Path) (rel : String) :
    (dir.joinClean rel).components = clean (dir.components ++ steps rel) := by
  rw [components_joinClean, clean_append_components]

/-! ## One join after another -/

/-- To `clean` the part `cs` on the way to cleaning a longer list changes nothing. -/
theorem clean_clean_append {cs : List Component} (h : clean (clean cs) = clean cs)
    (ds : List Component) : clean (clean cs ++ ds) = clean (cs ++ ds) := by
  rw [clean_append, clean_append, h]

/-- To join a text of two parts `a` and `b` to `dir` is to join `a` and then `b`. To join nothing
changes nothing about a joined path. -/
theorem joinClean_joinClean (dir : Path) (a b : String) :
    dir.joinClean (a ++ "/" ++ b) = (dir.joinClean a).joinClean b ∧
      (dir.joinClean a).joinClean "" = dir.joinClean a := by
  have hclean : clean (clean (dir.components ++ steps a)) = clean (dir.components ++ steps a) := by
    rw [← components_joinClean_eq]
    exact clean_joinClean dir a
  have hjoin : ∀ c, (dir.joinClean a).joinClean c =
      ofComponents (clean (dir.components ++ steps a ++ steps c)) := by
    intro c
    rw [joinClean_eq, components_joinClean_eq, clean_clean_append hclean]
  constructor
  · rw [hjoin, joinClean_eq, steps_append_slash, List.append_assoc]
  · have hnothing : steps "" = [] := rfl
    rw [hjoin, joinClean_eq, hnothing, List.append_nil]

/-! ## What a joined path is made of -/

/-- `p` starts at the root. -/
def Rooted (p : Path) : Prop := p.text.toList.head? = some '/'

instance (p : Path) : Decidable p.Rooted := inferInstanceAs (Decidable (_ = _))

theorem lead_eq_root_iff {s : List Char} :
    Component.lead s = [.root] ↔ s.head? = some '/' := by
  fun_cases Component.lead s with
  | case1 => simp
  | case2 => simp
  | case3 => simp
  | case4 s hroot =>
    cases s with
    | nil => simp
    | cons c s =>
      have hc : c ≠ '/' := fun h => hroot s (h ▸ rfl)
      simp [hc]

theorem root_mem_components_iff {p : Path} : .root ∈ p.components ↔ p.Rooted := by
  rw [Rooted, ← lead_eq_root_iff, components, List.mem_append]
  have hrest : .root ∉ (segments p.text.toList).filterMap Component.ofSegment? :=
    root_not_mem_steps p.text
  rcases lead_cases p.text.toList with hlead | hlead | hlead <;> simp [hlead, hrest]

/-- No step `c` takes the root away from `done`. -/
theorem root_mem_resolve {done : List Component} (h : .root ∈ done) (c : Component) :
    .root ∈ Component.resolve done c := by
  cases c with
  | root => exact List.mem_cons_of_mem _ h
  | here => exact h
  | name s => exact List.mem_cons_of_mem _ h
  | up =>
    cases done with
    | nil => cases h
    | cons d done =>
      cases d with
      | root => exact h
      | name s => exact (List.mem_cons.1 h).resolve_left (by simp)
      | here => exact List.mem_cons_of_mem _ h
      | up => exact List.mem_cons_of_mem _ h

theorem root_mem_foldl_resolve {done : List Component} (h : .root ∈ done) (cs : List Component) :
    .root ∈ cs.foldl Component.resolve done := by
  induction cs generalizing done with
  | nil => exact h
  | cons c cs ih => exact ih (root_mem_resolve h c)

theorem root_mem_clean {cs : List Component} (h : cs.head? = some .root) : .root ∈ clean cs := by
  obtain ⟨rest, rfl⟩ := List.head?_eq_some_iff.1 h
  rw [clean, List.mem_reverse, List.foldl_cons]
  exact root_mem_foldl_resolve List.mem_cons_self rest

/-- `dir.joinClean rel` has the root if `dir` has it. -/
theorem root_mem_joinClean_iff {dir : Path} {rel : String} :
    .root ∈ (dir.joinClean rel).components ↔ dir.Rooted := by
  rw [components_joinClean_eq]
  constructor
  · intro h
    rcases List.mem_append.1 (mem_of_mem_clean h) with h | h
    · exact root_mem_components_iff.1 h
    · exact absurd h (root_not_mem_steps rel)
  · intro h
    refine root_mem_clean ?_
    rw [components, lead_eq_root_iff.2 h]
    rfl

/-- `Settled` components, last one first, are names before steps upwards, or names before the
root. -/
theorem Settled.exists_eq {before : List Component} (h : Settled before) :
    ∃ names : List String, before = names.map .name ++ [.root] ∨
      ∃ ups : Nat, before = names.map .name ++ List.replicate ups .up := by
  induction before with
  | nil => exact ⟨[], .inr ⟨0, rfl⟩⟩
  | cons c before ih =>
    cases c with
    | root =>
      obtain rfl : before = [] := h
      exact ⟨[], .inl rfl⟩
    | here => exact h.elim
    | up =>
      refine ⟨[], .inr ⟨before.length + 1, ?_⟩⟩
      rw [List.replicate_succ, ← List.eq_replicate_of_mem h]
      rfl
    | name s =>
      obtain ⟨names, rfl | ⟨ups, rfl⟩⟩ := ih h
      · exact ⟨s :: names, .inl rfl⟩
      · exact ⟨s :: names, .inr ⟨ups, rfl⟩⟩

/-! ## Steps that stay below -/

def Component.isName : Component → Bool
  | name _ => true
  | _ => false

@[simp] theorem Component.isName_iff {c : Component} : c.isName = true ↔ ∃ s, c = .name s := by
  cases c <;> simp [isName]

/-- No start of `cs` has more steps `.up` than names. -/
def StaysBelow (cs : List Component) : Prop :=
  ∀ start, start <+: cs → start.count .up ≤ start.countP Component.isName

instance (cs : List Component) : Decidable (StaysBelow cs) :=
  decidable_of_iff (∀ start ∈ cs.inits, start.count .up ≤ start.countP Component.isName)
    (by simp only [List.mem_inits, StaysBelow])

/-- The induction is on `cs`. The `names` that were put on top of what was there `before` count as
taken already, so that each step `.up` finds one to take away. -/
theorem foldl_resolve_of_staysBelow {cs before : List Component} (names : List String)
    (hroot : .root ∉ cs)
    (h : ∀ start, start <+: cs →
      start.count .up ≤ start.countP Component.isName + names.length) :
    ∃ names' : List String,
      cs.foldl Component.resolve (names.map .name ++ before) = names'.map .name ++ before := by
  induction cs generalizing names with
  | nil => exact ⟨names, rfl⟩
  | cons c cs ih =>
    obtain ⟨hc, hcs⟩ := not_or.1 (mt List.mem_cons.2 hroot)
    have hstart : ∀ start, start <+: cs → (c :: start).count .up ≤
        (c :: start).countP Component.isName + names.length :=
      fun start hs => h (c :: start) ((List.prefix_cons_inj c).2 hs)
    rw [List.foldl_cons]
    cases c with
    | root => exact absurd rfl hc
    | here =>
      refine ih names hcs fun start hs => ?_
      have hle := hstart start hs
      rwa [List.count_cons_of_ne (by simp), List.countP_cons_of_neg (by simp)] at hle
    | name s =>
      refine ih (s :: names) hcs fun start hs => ?_
      have hle := hstart start hs
      rw [List.count_cons_of_ne (by simp), List.countP_cons_of_pos rfl] at hle
      rw [List.length_cons]
      omega
    | up =>
      cases names with
      | nil => simpa using hstart [] List.nil_prefix
      | cons s names =>
        refine ih names hcs fun start hs => ?_
        have hle := hstart start hs
        rw [List.count_cons_self, List.countP_cons_of_neg (by simp), List.length_cons] at hle
        omega

/-- What stands before the `steps` of `rel` has neither steps upwards nor names. -/
theorem StaysBelow.steps {rel : String} (h : StaysBelow (Path.mk rel).components) :
    StaysBelow (steps rel) := by
  intro start hs
  rw [components_eq] at h
  have hle := h (Component.lead rel.toList ++ start) ((List.prefix_append_right_inj _).2 hs)
  rcases lead_cases rel.toList with hlead | hlead | hlead <;>
    simpa [hlead] using hle

/-- `dir.joinClean rel` is the root, exactly if `dir` is `Rooted`, or else steps upwards, and then
names only. If `rel` `StaysBelow`, rooted or not, the path lies below `dir`. -/
theorem components_joinClean_contained (dir : Path) (rel : String) :
    (∃ (ups : Nat) (names : List String), (dir.Rooted → ups = 0) ∧
      (dir.joinClean rel).components =
        (if dir.Rooted then [.root] else []) ++ List.replicate ups .up ++ names.map .name) ∧
    (StaysBelow (Path.mk rel).components →
      (dir.joinClean "").components <+: (dir.joinClean rel).components) := by
  constructor
  · have hsettled : Settled (dir.joinClean rel).components.reverse := by
      rw [components_joinClean]
      exact settled_joined dir rel
    obtain ⟨names, hnames⟩ := hsettled.exists_eq
    simp only [List.reverse_eq_iff, List.reverse_append, ← List.map_reverse,
      List.reverse_replicate, List.reverse_singleton] at hnames
    rcases hnames with hnames | ⟨ups, hnames⟩
    · have hrooted : dir.Rooted := root_mem_joinClean_iff.1 (by rw [hnames]; simp)
      refine ⟨0, names.reverse, fun _ => rfl, ?_⟩
      rw [if_pos hrooted, hnames]
      rfl
    · have hrelative : ¬ dir.Rooted := by
        intro hrooted
        have hmem : .root ∈ (dir.joinClean rel).components := root_mem_joinClean_iff.2 hrooted
        rw [hnames] at hmem
        simp at hmem
      refine ⟨ups, names.reverse, fun hrooted => absurd hrooted hrelative, ?_⟩
      rw [if_neg hrelative, hnames]
      rfl
  · intro hbelow
    obtain ⟨names, hnames⟩ : ∃ names : List String,
        (steps rel).foldl Component.resolve (clean dir.components).reverse =
          names.map .name ++ (clean dir.components).reverse :=
      foldl_resolve_of_staysBelow [] (root_not_mem_steps rel) hbelow.steps
    have hdir : (dir.joinClean "").components = clean dir.components := by
      rw [components_joinClean_eq]
      exact congrArg clean (List.append_nil _)
    refine ⟨(names.map .name).reverse, ?_⟩
    rw [hdir, components_joinClean_eq, clean_append, hnames, List.reverse_append,
      List.reverse_reverse]

/-- The rooted argument `/x/../y/z.go`, in which a step upwards takes back a name, is taken below
the directory. -/
theorem components_joinClean_contained_rooted :
    StaysBelow (Path.mk "/x/../y/z.go").components ∧
      (Path.mk "/src/./api").joinClean "/x/../y/z.go" = ⟨"/src/api/y/z.go"⟩ ∧
      ((Path.mk "/src/./api").joinClean "").components <+:
        ((Path.mk "/src/./api").joinClean "/x/../y/z.go").components := by
  have hbelow : StaysBelow (Path.mk "/x/../y/z.go").components := by decide +kernel
  exact ⟨hbelow, rfl, (components_joinClean_contained ⟨"/src/./api"⟩ "/x/../y/z.go").2 hbelow⟩

end Understudy.Path
