import Mathlib.Data.List.Forall2

/-!
# Steps that may fail

What a computation that succeeded went through, taken apart at its first step. `bind_ok` is about
steps that fail or give a value; the `run_*` lemmas are about steps that also carry a state along,
which they keep when they fail.

* `mapM_error_iff`: a list of steps fails with the first step that fails.
* `InTurn`, `run_mapM_iff`: a list of steps that succeeded, by the states that they pass on.
* `run_mapM_ok`: the same, by what each of them gives and does to the state.
* `run_mapM_of_forall₂`, `run_mapM_eq`, `exists_run_mapM`: a list of steps none of which fails.
* `run_mapM_error`: a list of steps up to the one that fails.
-/

namespace Understudy.Outcome

variable {ε σ α β : Type}

theorem bind_ok {x : Except ε α} {f : α → Except ε β} {b : β} (h : (x >>= f) = .ok b) :
    ∃ a, x = .ok a ∧ f a = .ok b := by
  cases x with
  | error e => cases h
  | ok a => exact ⟨a, rfl, h⟩

theorem bind_error {x : Except ε α} {f : α → Except ε β} {e : ε} (h : (x >>= f) = .error e) :
    x = .error e ∨ ∃ a, x = .ok a ∧ f a = .error e := by
  cases x with
  | error e' => cases h; exact .inl rfl
  | ok a => exact .inr ⟨a, rfl, h⟩

theorem getElem?_of_forall₂ {R : α → β → Prop} {l : List α} {bs : List β}
    (h : List.Forall₂ R l bs) {n : Nat} {a : α} (ha : l[n]? = some a) :
    ∃ b, bs[n]? = some b ∧ R a b := by
  induction h generalizing n with
  | nil => cases ha
  | @cons x b l bs hxb _ ih =>
    cases n with
    | zero =>
      obtain rfl := Option.some.inj ha
      exact ⟨b, rfl, hxb⟩
    | succ n => exact ih ha

theorem exists_of_forall₂ {R : α → β → Prop} {l : List α} {bs : List β}
    (h : List.Forall₂ R l bs) {a : α} (ha : a ∈ l) : ∃ b ∈ bs, R a b := by
  obtain ⟨n, hn⟩ := List.getElem?_of_mem ha
  obtain ⟨b, hb, hr⟩ := getElem?_of_forall₂ h hn
  exact ⟨b, List.mem_of_getElem? hb, hr⟩

/-- Steps `f` and `f'` that are the same for every item of `l`. -/
theorem mapM_congr {m : Type → Type} [Monad m] [LawfulMonad m] {f f' : α → m β} {l : List α}
    (h : ∀ a ∈ l, f' a = f a) : l.mapM f' = l.mapM f := by
  induction l with
  | nil => rfl
  | cons a l ih =>
    rw [List.mapM_cons, List.mapM_cons, h a List.mem_cons_self,
      ih fun b hb => h b (List.mem_cons_of_mem _ hb)]

/-- Steps `f` on the images `g a` of a list, none of which fails. -/
theorem mapM_map_eq_some {γ : Type} {f : β → Option γ} {g : α → β} {value : α → γ} {l : List α}
    (h : ∀ a ∈ l, f (g a) = some (value a)) : (l.map g).mapM f = some (l.map value) := by
  induction l with
  | nil => rfl
  | cons a l ih =>
    have hl := ih fun b hb => h b (List.mem_cons_of_mem _ hb)
    simp [h a List.mem_cons_self, hl]

/-- Steps `f` that succeeded one after the other, each by itself. -/
theorem mapM_ok {f : α → Except ε β} {l : List α} {bs : List β} (h : l.mapM f = .ok bs) :
    List.Forall₂ (fun a b => f a = .ok b) l bs := by
  induction l generalizing bs with
  | nil => cases h; exact .nil
  | cons a l ih =>
    rw [List.mapM_cons] at h
    obtain ⟨b, hb, h⟩ := bind_ok h
    obtain ⟨bs', hl, h⟩ := bind_ok h
    cases h
    exact .cons hb (ih hl)

/-- Steps `f` one after the other fail with the first that fails. -/
theorem mapM_error_iff {f : α → Except ε β} {l : List α} {e : ε} :
    l.mapM f = .error e ↔
      ∃ before a after, l = before ++ a :: after ∧ (∀ b ∈ before, ∀ e', f b ≠ .error e') ∧
        f a = .error e := by
  induction l with
  | nil =>
    constructor
    · intro h; cases h
    · rintro ⟨before, a, after, hl, -⟩
      simp at hl
  | cons x l ih =>
    rw [List.mapM_cons]
    cases hx : f x with
    | error e' =>
      constructor
      · intro h
        cases h
        exact ⟨[], x, l, rfl, by simp, hx⟩
      · rintro ⟨before, a, after, hl, hbefore, ha⟩
        cases before with
        | nil =>
          obtain ⟨rfl, -⟩ := List.cons.inj hl
          rw [hx] at ha
          cases ha
          rfl
        | cons b before =>
          obtain ⟨rfl, -⟩ := List.cons.inj hl
          exact absurd hx (hbefore x List.mem_cons_self e')
    | ok y =>
      have hrest : (Except.ok y >>= fun y => l.mapM f >>= fun ys => pure (y :: ys)) = .error e ↔
          l.mapM f = .error e := by
        cases l.mapM f with
        | error e' => exact Iff.rfl
        | ok ys => exact ⟨nofun, nofun⟩
      rw [hrest, ih]
      constructor
      · rintro ⟨before, a, after, rfl, hbefore, ha⟩
        refine ⟨x :: before, a, after, rfl, ?_, ha⟩
        intro b hb e'
        rcases List.mem_cons.1 hb with rfl | hb
        · rw [hx]; nofun
        · exact hbefore b hb e'
      · rintro ⟨before, a, after, hl, hbefore, ha⟩
        cases before with
        | nil =>
          obtain ⟨rfl, -⟩ := List.cons.inj hl
          rw [hx] at ha
          cases ha
        | cons b before =>
          obtain ⟨-, rfl⟩ := List.cons.inj hl
          exact ⟨before, a, after, rfl, fun c hc => hbefore c (List.mem_cons_of_mem _ hc), ha⟩

theorem run_pure (a : α) (s : σ) : (pure a : ExceptT ε (StateM σ) α).run s = (.ok a, s) := rfl

/-- If `x` succeeds, it hands its value and its state on to `f`; if it fails, that ends the run. -/
theorem run_bind (x : ExceptT ε (StateM σ) α) (f : α → ExceptT ε (StateM σ) β) (s : σ) :
    (x >>= f).run s =
      match x.run s with
      | (.ok a, s₁) => (f a).run s₁
      | (.error e, s₁) => (.error e, s₁) := by
  show (ExceptT.bindCont f (x.run s).1) (x.run s).2 = _
  cases x.run s with
  | mk r s₁ => cases r <;> rfl

theorem run_bind_ok {x : ExceptT ε (StateM σ) α} {f : α → ExceptT ε (StateM σ) β} {b : β}
    {s s₂ : σ} (h : (x >>= f).run s = (.ok b, s₂)) :
    ∃ a s₁, x.run s = (.ok a, s₁) ∧ (f a).run s₁ = (.ok b, s₂) := by
  rw [run_bind] at h
  split at h
  · exact ⟨_, _, by assumption, h⟩
  · cases h

/-- Steps `f` on the items of a list, each from the state that the one before it leaves. -/
inductive InTurn (f : α → ExceptT ε (StateM σ) β) : σ → List α → List β → σ → Prop
  | nil (s : σ) : InTurn f s [] [] s
  | cons {a : α} {l : List α} {b : β} {bs : List β} {s s₁ s₂ : σ} :
    (f a).run s = (.ok b, s₁) → InTurn f s₁ l bs s₂ → InTurn f s (a :: l) (b :: bs) s₂

theorem run_mapM_iff {f : α → ExceptT ε (StateM σ) β} {l : List α} {bs : List β} {s s₁ : σ} :
    (l.mapM f).run s = (.ok bs, s₁) ↔ InTurn f s l bs s₁ := by
  constructor
  · intro h
    induction l generalizing s bs with
    | nil =>
      rw [List.mapM_nil, run_pure] at h
      cases h
      exact .nil _
    | cons a l ih =>
      rw [List.mapM_cons] at h
      obtain ⟨b, s₂, ha, h⟩ := run_bind_ok h
      obtain ⟨bs', s₃, hl, h⟩ := run_bind_ok h
      rw [run_pure] at h
      cases h
      exact .cons ha (ih hl)
  · intro h
    induction h with
    | nil s => rfl
    | cons ha _ ih =>
      rw [List.mapM_cons, run_bind, ha]
      simp only [run_bind, ih, run_pure]

/-- Steps that succeeded one after the other: `P` relates what went into each to what came out, and
`step` is what each does to the state. -/
theorem run_mapM_ok {f : α → ExceptT ε (StateM σ) β} {P : α → β → Prop} {step : α → σ → σ}
    (hf : ∀ a s b s₁, (f a).run s = (.ok b, s₁) → P a b ∧ s₁ = step a s) {l : List α}
    {bs : List β} {s s₁ : σ} (h : (l.mapM f).run s = (.ok bs, s₁)) :
    List.Forall₂ P l bs ∧ s₁ = l.foldl (fun s a => step a s) s := by
  rw [run_mapM_iff] at h
  induction h with
  | nil s => exact ⟨.nil, rfl⟩
  | cons ha _ ih =>
    obtain ⟨hab, rfl⟩ := hf _ _ _ _ ha
    obtain ⟨hP, rfl⟩ := ih
    exact ⟨.cons hab hP, rfl⟩

/-- Steps `f` of which `P` says what each gives and `step` what it does to the state. -/
theorem run_mapM_of_forall₂ {f : α → ExceptT ε (StateM σ) β} {P : α → β → Prop}
    {step : α → σ → σ} (hf : ∀ a b, P a b → ∀ s, (f a).run s = (.ok b, step a s)) {l : List α}
    {bs : List β} (h : List.Forall₂ P l bs) (s : σ) :
    (l.mapM f).run s = (.ok bs, l.foldl (fun s a => step a s) s) := by
  rw [run_mapM_iff]
  induction h generalizing s with
  | nil => exact .nil s
  | @cons a b l bs hab _ ih => exact .cons (hf a b hab s) (ih (step a s))

/-- Steps `f` that do not fail give the list of their values `value a`. -/
theorem run_mapM_eq {f : α → ExceptT ε (StateM σ) β} {value : α → β} {step : α → σ → σ}
    {l : List α} (hf : ∀ a ∈ l, ∀ s, (f a).run s = (.ok (value a), step a s)) (s : σ) :
    (l.mapM f).run s = (.ok (l.map value), l.foldl (fun s a => step a s) s) := by
  have hvalues : List.Forall₂ (fun a b => a ∈ l ∧ value a = b) l (l.map value) :=
    List.forall₂_map_right_iff.2 (List.forall₂_same.2 fun _ ha => ⟨ha, rfl⟩)
  refine run_mapM_of_forall₂ ?_ hvalues s
  rintro a _ ⟨ha, rfl⟩ s
  exact hf a ha s

/-- Steps `f` that succeed in every state, of which `step` says what each does to it. -/
theorem exists_run_mapM {f : α → ExceptT ε (StateM σ) β} {step : α → σ → σ} {l : List α}
    (hf : ∀ a ∈ l, ∀ s, ∃ b, (f a).run s = (.ok b, step a s)) (s : σ) :
    ∃ bs, (l.mapM f).run s = (.ok bs, l.foldl (fun s a => step a s) s) := by
  simp only [run_mapM_iff]
  induction l generalizing s with
  | nil => exact ⟨[], .nil s⟩
  | cons a l ih =>
    obtain ⟨b, hb⟩ := hf a List.mem_cons_self s
    obtain ⟨bs, hbs⟩ := ih (fun c hc => hf c (List.mem_cons_of_mem _ hc)) (step a s)
    exact ⟨b :: bs, .cons hb hbs⟩

/-- Steps `f` up to one, that of `a`, that fails. Those of `after` are not taken. -/
theorem run_mapM_error {f : α → ExceptT ε (StateM σ) β} {step : α → σ → σ} {before : List α}
    (hbefore : ∀ b ∈ before, ∀ s, ∃ c, (f b).run s = (.ok c, step b s)) {a : α} {e : ε} {s s₁ : σ}
    (ha : (f a).run (before.foldl (fun s b => step b s) s) = (.error e, s₁)) (after : List α) :
    ((before ++ a :: after).mapM f).run s = (.error e, s₁) := by
  induction before generalizing s with
  | nil =>
    rw [List.foldl_nil] at ha
    rw [List.nil_append, List.mapM_cons, run_bind, ha]
  | cons b before ih =>
    obtain ⟨c, hc⟩ := hbefore b List.mem_cons_self s
    have hrest := ih (fun d hd => hbefore d (List.mem_cons_of_mem _ hd)) ha
    rw [List.cons_append, List.mapM_cons, run_bind, hc]
    simp only [run_bind, hrest]

/-- The first item `a` of `l` for which `P` does not hold. -/
theorem exists_first_not {P : α → Prop} {l : List α} (h : ¬ ∀ a ∈ l, P a) :
    ∃ before a after, l = before ++ a :: after ∧ (∀ b ∈ before, P b) ∧ ¬ P a := by
  induction l with
  | nil => exact absurd (fun a ha => absurd ha List.not_mem_nil) h
  | cons x l ih =>
    by_cases hx : P x
    · rw [List.forall_mem_cons, not_and] at h
      obtain ⟨before, a, after, rfl, hbefore, ha⟩ := ih (h hx)
      exact ⟨x :: before, a, after, rfl, List.forall_mem_cons.2 ⟨hx, hbefore⟩, ha⟩
    · exact ⟨[], x, l, rfl, fun b hb => absurd hb List.not_mem_nil, hx⟩

end Understudy.Outcome
