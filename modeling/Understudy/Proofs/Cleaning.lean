import Mathlib.Data.List.Induction
import Understudy.Path

/-!
# Cleaned paths

Putting a name behind a path puts one component behind its components. Cleaning leaves the root, or
else steps upwards, and then names; such components are what they were after they were spelled out
and read again.

* `Path.components_join`: the components of a path with a name put behind it.
* `Path.Settled`: components in which cleaning finds nothing to do.
* `Path.clean_of_settled`, `Path.settled_clean`: cleaning leaves these alone and gives nothing else.
* `Path.components_ofComponents`: settled components survive being spelled out.
* `Path.components_joinClean`: the components of a lexical join.
-/

namespace Understudy.Path

/-! ## Segments -/

theorem segments_ne_nil (s : List Char) : segments s ≠ [] := by
  cases s with
  | nil => simp [segments]
  | cons c cs =>
    rw [segments]
    split
    · simp
    · split <;> simp

theorem segments_append_slash (s t : List Char) :
    segments (s ++ '/' :: t) = segments s ++ segments t := by
  induction s with
  | nil => simp [segments]
  | cons c cs ih =>
    rw [List.cons_append, segments, segments, ih]
    split
    · rfl
    · cases hcs : segments cs with
      | nil => exact absurd hcs (segments_ne_nil cs)
      | cons first rest => rfl

theorem segments_of_not_mem {s : List Char} (h : '/' ∉ s) : segments s = [s] := by
  induction s with
  | nil => rfl
  | cons c cs ih =>
    obtain ⟨hc, hcs⟩ := not_or.1 (mt List.mem_cons.2 h)
    rw [segments, if_neg (Ne.symm hc), ih hcs]

theorem not_mem_of_mem_segments {s segment : List Char} (h : segment ∈ segments s) :
    '/' ∉ segment := by
  induction s generalizing segment with
  | nil => simp_all [segments]
  | cons c cs ih =>
    rw [segments] at h
    split at h
    · rcases List.mem_cons.1 h with rfl | h
      · simp
      · exact ih h
    · rename_i hc
      cases hcs : segments cs with
      | nil => exact absurd hcs (segments_ne_nil cs)
      | cons first rest =>
        rw [hcs] at h ih
        rcases List.mem_cons.1 h with rfl | h
        · simp [Ne.symm hc, ih List.mem_cons_self]
        · exact ih (List.mem_cons_of_mem _ h)

namespace Component

/-- A slash behind the start `s` of a path changes nothing about its `lead`. -/
theorem lead_append_slash {s : List Char} (hs : s ≠ []) (t : List Char) :
    lead (s ++ '/' :: t) = lead s := by
  fun_cases lead s with
  | case1 => rfl
  | case2 => rfl
  | case3 => rfl
  | case4 s hroot hdot hdotslash =>
    match s, hs with
    | [c], _ =>
      have hc : c ≠ '/' := fun h => hroot [] (h ▸ rfl)
      have hd : c ≠ '.' := fun h => hdot (h ▸ rfl)
      simp [lead, hc, hd]
    | c :: d :: rest, _ =>
      have hc : c ≠ '/' := fun h => hroot (d :: rest) (h ▸ rfl)
      have hcd : c = '.' → d ≠ '/' := fun hc hd => hdotslash rest (by rw [hc, hd])
      simp only [List.cons_append]
      unfold lead
      split <;> simp_all

theorem lead_of_ofSegment? {s : List Char} {c : Component} (h : ofSegment? s = some c)
    (hslash : '/' ∉ s) : lead s = [] := by
  fun_cases lead s with
  | case1 => simp at hslash
  | case2 => cases h
  | case3 => simp at hslash
  | case4 => rfl

theorem ofSegment?_text {s : List Char} {c : Component} (h : ofSegment? s = some c) :
    c.text.toList = s := by
  unfold ofSegment? at h
  split at h
  · cases h
  split at h
  · cases h
  split at h
  · cases h; simp_all [text]
  · cases h; simp [text]

/-- The component `c` is written as one segment, which is read as `c` again. -/
def Plain (c : Component) : Prop :=
  ofSegment? c.text.toList = some c ∧ '/' ∉ c.text.toList

end Component

/-! ## Joining -/

theorem components_mk (cs : List Char) :
    (Path.mk (String.ofList cs)).components =
      Component.lead cs ++ (segments cs).filterMap Component.ofSegment? := by
  simp [components]

theorem join_eq {p : Path} {t : String} (ht : '/' ∉ t.toList) :
    p.join t = ⟨String.ofList
      (if p.text.toList.getLast?.any (· ≠ '/') then p.text.toList ++ '/' :: t.toList
        else p.text.toList ++ t.toList)⟩ := by
  have hhead : t.toList.head? ≠ some '/' := fun h => ht (List.mem_of_head? h)
  rw [join, if_neg hhead]
  split <;> simp [← String.toList_inj]

/-- A segment `t` put behind `p` is a component behind `p.components`. -/
theorem components_join (p : Path) {t : String} {c : Component}
    (hc : Component.ofSegment? t.toList = some c) (ht : '/' ∉ t.toList) :
    (p.join t).components = p.components ++ [c] := by
  have hsegment : (segments t.toList).filterMap Component.ofSegment? = [c] := by
    simp [segments_of_not_mem ht, hc]
  rw [join_eq ht, components_mk, components]
  split
  · rename_i hlast
    have hne : p.text.toList ≠ [] := by
      intro hnil
      simp [hnil] at hlast
    rw [Component.lead_append_slash hne, segments_append_slash, List.filterMap_append, hsegment,
      List.append_assoc]
  · rename_i hlast
    rcases List.eq_nil_or_concat p.text.toList with hnil | ⟨init, last, hconcat⟩
    · rw [hnil, List.nil_append, Component.lead_of_ofSegment? hc ht, hsegment]
      rfl
    · obtain rfl : last = '/' := by simpa [hconcat] using hlast
      rw [List.concat_eq_append] at hconcat
      rw [hconcat, List.append_assoc init, List.singleton_append, segments_append_slash,
        segments_append_slash, List.filterMap_append, List.filterMap_append, hsegment]
      have hlead : Component.lead (init ++ '/' :: t.toList) = Component.lead (init ++ ['/']) := by
        cases init with
        | nil => rfl
        | cons d init => rw [Component.lead_append_slash (by simp),
            Component.lead_append_slash (by simp)]
      rw [hlead]
      simp [segments, Component.ofSegment?]

/-! ## The components of a path -/

theorem lead_cases (s : List Char) :
    Component.lead s = [] ∨ Component.lead s = [.root] ∨ Component.lead s = [.here] := by
  fun_cases Component.lead s <;> simp

theorem plain_of_mem_filterMap {s : List Char} {c : Component}
    (h : c ∈ (segments s).filterMap Component.ofSegment?) : c.Plain := by
  obtain ⟨segment, hsegment, hc⟩ := List.mem_filterMap.1 h
  have htext := Component.ofSegment?_text hc
  exact ⟨htext ▸ hc, htext ▸ not_mem_of_mem_segments hsegment⟩

theorem Component.Plain.ne_root {c : Component} (h : c.Plain) : c ≠ .root := by
  rintro rfl
  exact h.2 (by simp [text])

theorem plain_of_mem_components {p : Path} {c : Component} (h : c ∈ p.components)
    (hroot : c ≠ .root) (hhere : c ≠ .here) : c.Plain := by
  rcases List.mem_append.1 h with h | h
  · rcases lead_cases p.text.toList with hlead | hlead | hlead <;> simp_all
  · exact plain_of_mem_filterMap h

/-- `.root` stands at the start of `p.components` and nowhere else. -/
theorem root_not_mem_tail (p : Path) : .root ∉ p.components.tail := by
  have hrest : .root ∉ (segments p.text.toList).filterMap Component.ofSegment? :=
    fun h => (plain_of_mem_filterMap h).ne_root rfl
  rw [components]
  rcases lead_cases p.text.toList with hlead | hlead | hlead
  · rw [hlead]
    exact fun h => hrest (List.mem_of_mem_tail h)
  · simpa [hlead] using hrest
  · simpa [hlead] using hrest

/-! ## Cleaning -/

/-- Components, last one first, in which cleaning finds nothing to do: no `.`, the root only at the
start, and steps upwards only where nothing but such steps comes before. -/
def Settled : List Component → Prop
  | [] => True
  | .root :: before => before = []
  | .here :: _ => False
  | .up :: before => (∀ c ∈ before, c = .up)
  | .name _ :: before => Settled before

theorem Settled.of_cons {c : Component} {before : List Component} (h : Settled (c :: before)) :
    Settled before := by
  cases c with
  | root =>
    obtain rfl : before = [] := h
    trivial
  | here => exact h.elim
  | up =>
    cases before with
    | nil => trivial
    | cons d before =>
      obtain rfl : d = .up := h d List.mem_cons_self
      exact fun c hc => h c (List.mem_cons_of_mem _ hc)
  | name s => exact h

theorem resolve_of_settled {c : Component} {before : List Component}
    (h : Settled (c :: before)) : Component.resolve before c = c :: before := by
  cases c with
  | root => rfl
  | here => exact h.elim
  | up =>
    cases before with
    | nil => rfl
    | cons d before =>
      obtain rfl : d = .up := h d List.mem_cons_self
      rfl
  | name s => rfl

theorem settled_resolve {before : List Component} (h : Settled before) {c : Component}
    (hc : c ≠ .root) : Settled (Component.resolve before c) := by
  cases c with
  | root => exact absurd rfl hc
  | here => exact h
  | up =>
    cases before with
    | nil => exact fun c hc => nomatch hc
    | cons d before =>
      cases d with
      | root => exact h
      | here => exact h.elim
      | up =>
        intro c hc
        rcases List.mem_cons.1 hc with rfl | hc
        · rfl
        · exact h c hc
      | name s => exact h
  | name s => exact h

theorem settled_foldl_resolve {before cs : List Component} (h : Settled before)
    (hcs : .root ∉ cs) : Settled (cs.foldl Component.resolve before) := by
  induction cs generalizing before with
  | nil => exact h
  | cons c cs ih =>
    obtain ⟨hc, hcs⟩ := not_or.1 (mt List.mem_cons.2 hcs)
    exact ih (settled_resolve h (Ne.symm hc)) hcs

/-- `clean` leaves `Settled` components alone. -/
theorem clean_of_settled {cs : List Component} (h : Settled cs.reverse) : clean cs = cs := by
  have hfold : cs.foldl Component.resolve [] = cs.reverse := by
    induction cs using List.reverseRecOn with
    | nil => rfl
    | append_singleton cs c ih =>
      rw [List.reverse_append, List.reverse_singleton, List.singleton_append] at h ⊢
      rw [List.foldl_append, ih h.of_cons, List.foldl_cons, List.foldl_nil, resolve_of_settled h]
  rw [clean, hfold, List.reverse_reverse]

/-- `clean` gives `Settled` components, if `.root` stands only at the start of `cs`. -/
theorem settled_clean {cs : List Component} (h : .root ∉ cs.tail) : Settled (clean cs).reverse := by
  rw [clean, List.reverse_reverse]
  cases cs with
  | nil => trivial
  | cons c cs =>
    have hfirst : Settled (Component.resolve [] c) := by
      cases c with
      | root => rfl
      | here => trivial
      | up => exact fun c hc => nomatch hc
      | name s => trivial
    rw [List.foldl_cons]
    exact settled_foldl_resolve hfirst h

theorem mem_of_mem_foldl_resolve {before cs : List Component} {c : Component}
    (h : c ∈ cs.foldl Component.resolve before) : c ∈ before ∨ c ∈ cs := by
  induction cs generalizing before with
  | nil => exact .inl h
  | cons d cs ih =>
    have hresolve : ∀ c ∈ Component.resolve before d, c ∈ before ∨ c = d := by
      unfold Component.resolve
      intro c hc
      split at hc
      · exact .inl hc
      · split at hc
        · exact .inl (List.mem_cons_of_mem _ hc)
        · exact .inl hc
        · exact (List.mem_cons.1 hc).symm
      · exact (List.mem_cons.1 hc).symm
    rcases ih h with h | h
    · rcases hresolve c h with h | rfl
      · exact .inl h
      · exact .inr List.mem_cons_self
    · exact .inr (List.mem_cons_of_mem _ h)

theorem mem_of_mem_clean {cs : List Component} {c : Component} (h : c ∈ clean cs) : c ∈ cs :=
  (mem_of_mem_foldl_resolve (List.mem_reverse.1 h)).resolve_left List.not_mem_nil

theorem Settled.ne_here {before : List Component} (h : Settled before) {c : Component}
    (hc : c ∈ before) : c ≠ .here := by
  induction before with
  | nil => cases hc
  | cons d before ih =>
    rcases List.mem_cons.1 hc with rfl | hc
    · rintro rfl
      exact h
    · exact ih h.of_cons hc

/-! ## Spelling components out -/

theorem ofComponents_append_singleton (cs : List Component) (c : Component) :
    ofComponents (cs ++ [c]) = (ofComponents cs).join c.text := by
  simp [ofComponents]

/-- `Settled` components `cs` are read again as they were spelled out by `ofComponents`. -/
theorem components_ofComponents {cs : List Component} (h : Settled cs.reverse)
    (hplain : ∀ c ∈ cs, c ≠ .root → c.Plain) : (ofComponents cs).components = cs := by
  induction cs using List.reverseRecOn with
  | nil => rfl
  | append_singleton cs c ih =>
    rw [List.reverse_append, List.reverse_singleton, List.singleton_append] at h
    by_cases hroot : c = .root
    · subst hroot
      obtain rfl : cs = [] := List.reverse_eq_nil_iff.1 h
      rfl
    · obtain ⟨hsegment, hslash⟩ := hplain c (by simp) hroot
      rw [ofComponents_append_singleton, components_join _ hsegment hslash,
        ih h.of_cons fun d hd => hplain d (List.mem_append_left _ hd)]

theorem settled_joined (dir : Path) (rel : String) :
    Settled (clean (dir.components ++
      (Path.mk rel).components.filter (· ≠ .root))).reverse := by
  apply settled_clean
  have hroot : .root ∉ (Path.mk rel).components.filter (· ≠ .root) := by simp
  cases hdir : dir.components with
  | nil => exact fun h => hroot (List.mem_of_mem_tail h)
  | cons c cs =>
    have hcs := dir.root_not_mem_tail
    rw [hdir, List.tail_cons] at hcs
    intro h
    rcases List.mem_append.1 h with h | h
    · exact hcs h
    · exact hroot h

theorem components_joinClean (dir : Path) (rel : String) :
    (dir.joinClean rel).components =
      clean (dir.components ++ (Path.mk rel).components.filter (· ≠ .root)) := by
  have hsettled := settled_joined dir rel
  refine components_ofComponents hsettled fun c hc hne => ?_
  have hhere := hsettled.ne_here (List.mem_reverse.2 hc)
  rcases List.mem_append.1 (mem_of_mem_clean hc) with hmem | hmem
  · exact plain_of_mem_components hmem hne hhere
  · exact plain_of_mem_components (List.mem_filter.1 hmem).1 hne hhere

theorem clean_joinClean (dir : Path) (rel : String) :
    clean (dir.joinClean rel).components = (dir.joinClean rel).components := by
  rw [components_joinClean]
  exact clean_of_settled (settled_joined dir rel)

end Understudy.Path
