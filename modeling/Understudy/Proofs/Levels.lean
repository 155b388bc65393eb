import Mathlib.Data.List.Forall2
import Understudy.Proofs.Explosion

/-!
# Embedded interfaces level by level

Where texts decide what is embedded, an interface that the walk passes over adds nothing: all that
is below it has a text that stands before. So the walk gives the first interface of each text among
all levels of embedding, and the levels know nothing of texts.

* `firsts`: the first item of each key.
* `firsts_flatMap_firsts`: items whose key decides the keys of what they give can be left out early.
* `TypeGraph.levels`: what is embedded in less than so many steps, with repetitions.
* `TypeGraph.TextsDecideEmbedded.explode_eq_firsts`: the walk in terms of levels.
-/

namespace Understudy

/-! ## First items -/

section Firsts

variable {α β κ κ' : Type} [DecidableEq κ] [DecidableEq κ']

/-- The first item of each key, apart from the keys in `met`. -/
def firsts (key : α → κ) (met : List κ) : List α → List α
  | [] => []
  | a :: l => if key a ∈ met then firsts key met l else a :: firsts key (key a :: met) l

/-- The keys in `met` count as a set. -/
theorem firsts_congr {key : α → κ} {met met' : List κ} (h : ∀ k, k ∈ met ↔ k ∈ met')
    (l : List α) : firsts key met l = firsts key met' l := by
  induction l generalizing met met' with
  | nil => rfl
  | cons a l ih =>
    have hcons : ∀ k, k ∈ key a :: met ↔ k ∈ key a :: met' := fun k => by simp [h]
    rw [firsts, firsts, ih h, ih hcons]
    simp only [h]

theorem mem_firsts {key : α → κ} {met : List κ} {l : List α} {a : α}
    (h : a ∈ firsts key met l) : a ∈ l ∧ key a ∉ met := by
  induction l generalizing met with
  | nil => cases h
  | cons b l ih =>
    rw [firsts] at h
    split at h
    · exact ⟨List.mem_cons_of_mem _ (ih h).1, (ih h).2⟩
    · rcases List.mem_cons.1 h with rfl | h
      · exact ⟨List.mem_cons_self, by assumption⟩
      · obtain ⟨hmem, hkey⟩ := ih h
        exact ⟨List.mem_cons_of_mem _ hmem, fun hmet => hkey (List.mem_cons_of_mem _ hmet)⟩

theorem exists_mem_firsts {key : α → κ} {met : List κ} {l : List α} {a : α} (ha : a ∈ l)
    (hkey : key a ∉ met) : ∃ b ∈ firsts key met l, key b = key a := by
  induction l generalizing met with
  | nil => cases ha
  | cons b l ih =>
    rw [firsts]
    split
    · rename_i hb
      rcases List.mem_cons.1 ha with rfl | ha
      · exact absurd hb hkey
      · exact ih ha hkey
    · by_cases hba : key b = key a
      · exact ⟨b, List.mem_cons_self, hba⟩
      · rcases List.mem_cons.1 ha with rfl | ha
        · exact absurd rfl hba
        · have hnew : key a ∉ key b :: met := by simp [hkey, Ne.symm hba]
          obtain ⟨c, hc, hca⟩ := ih ha hnew
          exact ⟨c, List.mem_cons_of_mem _ hc, hca⟩

theorem eq_of_mem_firsts {key : α → κ} {met : List κ} {l : List α} {a b : α}
    (ha : a ∈ firsts key met l) (hb : b ∈ firsts key met l) (h : key a = key b) : a = b := by
  induction l generalizing met with
  | nil => cases ha
  | cons c l ih =>
    rw [firsts] at ha hb
    split at ha
    · rename_i hc
      rw [if_pos hc] at hb
      exact ih ha hb
    · rename_i hc
      rw [if_neg hc] at hb
      -- the keys behind the head are not the key of the head
      rcases List.mem_cons.1 ha with rfl | ha <;> rcases List.mem_cons.1 hb with rfl | hb
      · rfl
      · exact absurd (by simp [h]) (mem_firsts hb).2
      · exact absurd (by simp [h]) (mem_firsts ha).2
      · exact ih ha hb

/-- The keys met when `firsts` is through with `l`. -/
theorem mem_keys_firsts {key : α → κ} {met : List κ} {l : List α} {k : κ} :
    k ∈ (firsts key met l).map key ++ met ↔ k ∈ l.map key ∨ k ∈ met := by
  rw [List.mem_append]
  by_cases hk : k ∈ met
  · simp [hk]
  simp only [hk, or_false, List.mem_map]
  constructor
  · rintro ⟨a, ha, rfl⟩
    exact ⟨a, (mem_firsts ha).1, rfl⟩
  · rintro ⟨a, ha, rfl⟩
    exact exists_mem_firsts ha hk

theorem firsts_eq_nil {key : α → κ} {met : List κ} {l : List α} (h : ∀ a ∈ l, key a ∈ met) :
    firsts key met l = [] :=
  List.eq_nil_iff_forall_not_mem.2 fun _ ha => (mem_firsts ha).2 (h _ (mem_firsts ha).1)

theorem firsts_append (key : α → κ) (met : List κ) (l r : List α) :
    firsts key met (l ++ r) =
      firsts key met l ++ firsts key ((firsts key met l).map key ++ met) r := by
  induction l generalizing met with
  | nil => rfl
  | cons a l ih =>
    rw [List.cons_append, firsts, firsts]
    split
    · exact ih met
    · rw [ih, List.cons_append]
      congr 2
      exact firsts_congr (fun _ => List.perm_middle.mem_iff) r

/-- An item can be left out before `f` follows the others, if what it gives is given by another with
its `key`. -/
theorem firsts_flatMap_firsts {key : α → κ} {key' : β → κ'} {f : α → List β} {P : α → Prop}
    (hf : ∀ a b, P a → P b → key a = key b → ∀ y ∈ f a, ∃ z ∈ f b, key' z = key' y)
    {met : List κ} {met' : List κ'} {l : List α} (hl : ∀ a ∈ l, P a)
    (hmet : ∀ a ∈ l, key a ∈ met → ∀ y ∈ f a, key' y ∈ met') :
    firsts key' met' ((firsts key met l).flatMap f) = firsts key' met' (l.flatMap f) := by
  induction l generalizing met met' with
  | nil => rfl
  | cons a l ih =>
    have hrest := fun b hb => hl b (List.mem_cons_of_mem _ hb)
    rw [firsts, List.flatMap_cons, firsts_append]
    split
    · rename_i ha
      rw [firsts_eq_nil (hmet a List.mem_cons_self ha)]
      exact ih hrest fun b hb => hmet b (List.mem_cons_of_mem _ hb)
    · rw [List.flatMap_cons, firsts_append]
      congr 1
      refine ih hrest fun b hb hkey y hy => mem_keys_firsts.2 ?_
      rcases List.mem_cons.1 hkey with hba | hkey
      · obtain ⟨z, hz, hzy⟩ := hf b a (hrest b hb) (hl a List.mem_cons_self) hba y hy
        exact .inl (hzy ▸ List.mem_map_of_mem hz)
      · exact .inr (hmet b (List.mem_cons_of_mem _ hb) hkey y hy)

/-- Lists `l` and `l'` whose items correspond by `R` have corresponding `firsts`, if they agree on
which keys are the same. -/
theorem firsts_forall₂ {R : α → β → Prop} {key : α → κ} {key' : β → κ'}
    (hkey : ∀ a b c d, R a b → R c d → (key a = key c ↔ key' b = key' d)) {met : List κ}
    {met' : List κ'} (hmet : ∀ a b, R a b → (key a ∈ met ↔ key' b ∈ met')) {l : List α}
    {l' : List β} (h : List.Forall₂ R l l') :
    List.Forall₂ R (firsts key met l) (firsts key' met' l') := by
  induction h generalizing met met' with
  | nil => exact .nil
  | @cons a b l l' hab _ ih =>
    rw [firsts, firsts]
    by_cases ha : key a ∈ met
    · rw [if_pos ha, if_pos ((hmet a b hab).1 ha)]
      exact ih hmet
    · rw [if_neg ha, if_neg (mt (hmet a b hab).2 ha)]
      refine .cons hab (ih fun c d hcd => ?_)
      rw [List.mem_cons, List.mem_cons, hkey c d a b hcd hab, hmet c d hcd]

/-- If `key'` tells less apart than `key`, it leaves fewer items. -/
theorem firsts_sublist {key : α → κ} {key' : α → κ'} {met : List κ} {met' : List κ'}
    {l : List α} (hkey : ∀ a ∈ l, ∀ b ∈ l, key a = key b → key' a = key' b)
    (hmet : ∀ a ∈ l, key a ∈ met → key' a ∈ met') :
    (firsts key' met' l).Sublist (firsts key met l) := by
  induction l generalizing met met' with
  | nil => exact .slnil
  | cons a l ih =>
    have hrest := fun b hb c hc =>
      hkey b (List.mem_cons_of_mem _ hb) c (List.mem_cons_of_mem _ hc)
    have hmetRest := fun b hb => hmet b (List.mem_cons_of_mem _ hb)
    rw [firsts, firsts]
    by_cases ha' : key' a ∈ met'
    · rw [if_pos ha']
      split
      · exact ih hrest hmetRest
      · refine .cons _ (ih hrest fun b hb hb' => ?_)
        rcases List.mem_cons.1 hb' with hba | hb'
        · exact hkey b (List.mem_cons_of_mem _ hb) a List.mem_cons_self hba ▸ ha'
        · exact hmetRest b hb hb'
    · rw [if_neg ha', if_neg (mt (hmet a List.mem_cons_self) ha')]
      refine .cons_cons _ (ih hrest fun b hb hb' => ?_)
      rcases List.mem_cons.1 hb' with hba | hb'
      · exact hkey b (List.mem_cons_of_mem _ hb) a List.mem_cons_self hba ▸ List.mem_cons_self
      · exact List.mem_cons_of_mem _ (hmetRest b hb hb')

/-- If `key'` leaves as many items of `l` as `key`, which tells no less apart, it tells the same
apart. -/
theorem key_eq_of_length_firsts {key : α → κ} {key' : α → κ'} {l : List α}
    (hkey : ∀ a ∈ l, ∀ b ∈ l, key a = key b → key' a = key' b)
    (hlength : (firsts key' [] l).length = (firsts key [] l).length) {a b : α} (ha : a ∈ l)
    (hb : b ∈ l) (h : key' a = key' b) : key a = key b := by
  have hsame : firsts key' [] l = firsts key [] l :=
    (firsts_sublist hkey fun _ _ h => absurd h List.not_mem_nil).eq_of_length hlength
  obtain ⟨a₀, ha₀, hkeya⟩ : ∃ c ∈ firsts key [] l, key c = key a :=
    exists_mem_firsts ha List.not_mem_nil
  obtain ⟨b₀, hb₀, hkeyb⟩ : ∃ c ∈ firsts key [] l, key c = key b :=
    exists_mem_firsts hb List.not_mem_nil
  have hkey₀ : key' a₀ = key' b₀ :=
    calc key' a₀ = key' a := hkey a₀ (mem_firsts ha₀).1 a ha hkeya
      _ = key' b := h
      _ = key' b₀ := (hkey b₀ (mem_firsts hb₀).1 b hb hkeyb).symm
  obtain rfl := eq_of_mem_firsts (hsame ▸ ha₀) (hsame ▸ hb₀) hkey₀
  exact hkeya.symm.trans hkeyb

end Firsts

namespace TypeGraph

variable {g : TypeGraph}

/-! ## Levels -/

/-- What is embedded in `ids` in less than `n` steps, level by level. -/
def levels (g : TypeGraph) : Nat → List TypeId → List TypeId
  | 0, _ => []
  | n + 1, ids => ids ++ levels g n (ids.flatMap g.embedded)

theorem exists_reaches_of_mem_levels {n : Nat} {ids : List TypeId} {member : TypeId}
    (h : member ∈ g.levels n ids) : ∃ id ∈ ids, g.Reaches id member := by
  induction n generalizing ids with
  | zero => cases h
  | succ n ih =>
    rcases List.mem_append.1 h with h | h
    · exact ⟨member, h, .refl⟩
    · obtain ⟨a, ha, hreach⟩ := ih h
      obtain ⟨id, hid, ha⟩ := List.mem_flatMap.1 ha
      exact ⟨id, hid, .head ha hreach⟩

theorem reaches_of_mem_levels {n : Nat} {id member : TypeId} (h : member ∈ g.levels n [id]) :
    g.Reaches id member := by
  obtain ⟨a, ha, hreach⟩ := exists_reaches_of_mem_levels h
  obtain rfl := List.mem_singleton.1 ha
  exact hreach

theorem levels_mono {m n : Nat} (hmn : m ≤ n) {ids ids' : List TypeId} (hids : ids ⊆ ids') :
    g.levels m ids ⊆ g.levels n ids' := by
  induction n generalizing m ids ids' with
  | zero =>
    obtain rfl := Nat.le_zero.1 hmn
    exact List.nil_subset _
  | succ n ih =>
    cases m with
    | zero => exact List.nil_subset _
    | succ m =>
      intro a ha
      rcases List.mem_append.1 ha with ha | ha
      · exact List.mem_append_left _ (hids ha)
      · refine List.mem_append_right _ (ih (Nat.le_of_succ_le_succ hmn) ?_ ha)
        intro b hb
        obtain ⟨id, hid, hb⟩ := List.mem_flatMap.1 hb
        exact List.mem_flatMap.2 ⟨id, hids hid, hb⟩

theorem exists_mem_levels {id member : TypeId} (h : g.Reaches id member) :
    ∃ n, member ∈ g.levels n [id] := by
  induction h using Relation.ReflTransGen.head_induction_on with
  | refl => exact ⟨1, List.mem_cons_self⟩
  | @head a b hb _ ih =>
    obtain ⟨n, hn⟩ := ih
    refine ⟨n + 1, List.mem_append_right _ (levels_mono (Nat.le_refl n) ?_ hn)⟩
    simpa using hb

/-! ## The walk in terms of levels -/

theorem explodeFrom_congr {met met' : List String} (h : ∀ t, t ∈ met ↔ t ∈ met')
    (queue : List TypeId) : g.explodeFrom met queue = g.explodeFrom met' queue := by
  fun_induction explodeFrom g met queue generalizing met' with
  | case1 => rw [explodeFrom]
  | case2 met id rest hmet ih => rw [explodeFrom, if_pos ((h _).1 hmet), ih h]
  | case3 met id rest hmet ih =>
    have hcons : ∀ t, t ∈ g.structuralText id :: met ↔ t ∈ g.structuralText id :: met' :=
      fun t => by simp [h]
    rw [explodeFrom, if_neg (mt (h _).2 hmet), ih hcons]

/-- `explodeFrom` takes what stands in its `queue` first, and then what that embeds. -/
theorem explodeFrom_append (met : List String) (queue rest : List TypeId) :
    g.explodeFrom met (queue ++ rest) =
      firsts g.structuralText met queue ++
        g.explodeFrom ((firsts g.structuralText met queue).map g.structuralText ++ met)
          (rest ++ (firsts g.structuralText met queue).flatMap g.embedded) := by
  induction queue generalizing met rest with
  | nil => simp [firsts]
  | cons id queue ih =>
    rw [List.cons_append, explodeFrom, firsts]
    split
    · exact ih met rest
    · rw [List.append_assoc, ih, List.cons_append, List.flatMap_cons, ← List.append_assoc]
      congr 2
      exact explodeFrom_congr (fun _ => List.perm_middle.mem_iff) _

/-- The induction is on the number of levels. The queue and the level differ only in interfaces
whose text was met, and what interfaces with a text in `met` embed was met or is in the level. -/
theorem TextsDecideEmbedded.explodeFrom_eq {root : TypeId} (htexts : g.TextsDecideEmbedded root)
    {n : Nat} {met : List String} {queue level : List TypeId}
    (hlevel : ∀ a ∈ level, g.Reaches root a)
    (hsame : firsts g.structuralText met queue = firsts g.structuralText met level)
    (hclosed : ∀ a, g.Reaches root a → g.structuralText a ∈ met → ∀ c ∈ g.embedded a,
      g.structuralText c ∈ level.map g.structuralText ∨ g.structuralText c ∈ met)
    (hn : (g.explodeFrom met queue).length ≤ n) :
    g.explodeFrom met queue = firsts g.structuralText met (g.levels n level) := by
  induction n generalizing met queue level with
  | zero => exact List.eq_nil_of_length_eq_zero (Nat.le_zero.1 hn)
  | succ n ih =>
    have hstep := explodeFrom_append (g := g) met queue []
    rw [List.append_nil, List.nil_append] at hstep
    rw [hstep, List.length_append] at hn
    rw [hstep, levels, firsts_append, hsame]
    congr 1
    rw [hsame] at hn
    refine ih ?_ ?_ ?_ ?_
    · intro a ha
      obtain ⟨b, hb, ha⟩ := List.mem_flatMap.1 ha
      exact (hlevel b hb).tail ha
    · exact firsts_flatMap_firsts htexts hlevel fun a ha hmet c hc =>
        mem_keys_firsts.2 (hclosed a (hlevel a ha) hmet c hc)
    · intro a ha hmet c hc
      rcases List.mem_append.1 hmet with hvisited | hmet
      · obtain ⟨b, hb, htext⟩ := List.mem_map.1 hvisited
        have hb := (mem_firsts hb).1
        obtain ⟨d, hd, hdc⟩ := htexts a b ha (hlevel b hb) htext.symm c hc
        exact .inl (hdc ▸ List.mem_map_of_mem (List.mem_flatMap.2 ⟨b, hb, hd⟩))
      · exact .inr (mem_keys_firsts.2 (hclosed a ha hmet c hc))
    · -- a level that visits nothing is the last one
      cases hvisited : firsts g.structuralText met level with
      | nil => simp [explodeFrom]
      | cons a visited =>
        rw [hvisited, List.length_cons] at hn
        omega

/-- Where texts decide what is embedded, `g.explode id` is the first interface of each text in
`g.levels n [id]`. -/
theorem TextsDecideEmbedded.explode_eq_firsts {id : TypeId} (htexts : g.TextsDecideEmbedded id)
    {n : Nat} (hn : (g.explode id).length ≤ n) :
    g.explode id = firsts g.structuralText [] (g.levels n [id]) := by
  refine htexts.explodeFrom_eq (fun a ha => ?_) rfl (fun _ _ h => absurd h List.not_mem_nil) hn
  obtain rfl := List.mem_singleton.1 ha
  exact .refl

end TypeGraph

end Understudy
