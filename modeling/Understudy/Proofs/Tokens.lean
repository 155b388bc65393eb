import Understudy.TypeText.Writer

/-!
# Written types as tokens

What is written for a type is one sequence of texts and packages, whatever the qualifier. The
qualifier only decides how each package is spelled, and sees the packages in order.

* `TypeGraph.tokens?`: the tokens of a type, with at most so many types inside one another.
* `Token.spell`: writes tokens through a qualifier.
* `TypeGraph.write?_eq`, `TypeGraph.typeText?_eq`: writing a type is spelling its tokens.
* `TypeGraph.hasText_eq`: whether a type has a text depends on its tokens alone.
* `Token.spell_snd`: the state after spelling, as a fold over the packages.
* `Token.spell_fst`: the text, for a qualifier whose answers do not depend on its state.
-/

namespace Understudy

/-- A piece of a written type in which no type is left. -/
inductive Token
  | text (s : String)
  | package (p : PackageRef)
deriving DecidableEq, Repr

/-- What the state `s` of `q` becomes over the packages `ps` it is asked about. -/
def Qualifier.after {σ : Type} (q : Qualifier σ) (ps : List PackageRef) (s : σ) : σ :=
  ps.foldl (fun s p => (q p s).2) s

/-- A qualifier whose answers are those of `answer`, whatever was asked before. -/
def Qualifier.Answers {σ : Type} (q : Qualifier σ) (answer : PackageRef → String) : Prop :=
  ∀ p s, (q p s).1 = answer p

namespace Token

variable {σ : Type}

/-- The text of tokens, and the state of `q` after them. -/
def spell (q : Qualifier σ) : List Token → StateM σ String
  | [], s => ("", s)
  | .text t :: rest, s => (t ++ (spell q rest s).1, (spell q rest s).2)
  | .package p :: rest, s =>
    (dotted (q p s).1 ++ (spell q rest (q p s).2).1, (spell q rest (q p s).2).2)

/-- The packages among tokens. -/
def packages : List Token → List PackageRef
  | [] => []
  | .text _ :: rest => packages rest
  | .package p :: rest => p :: packages rest

/-- The text of tokens with the fixed answers `answer` for the packages. -/
def written (answer : PackageRef → String) : List Token → String
  | [] => ""
  | .text t :: rest => t ++ written answer rest
  | .package p :: rest => dotted (answer p) ++ written answer rest

theorem spell_append (q : Qualifier σ) (ts us : List Token) (s : σ) :
    spell q (ts ++ us) s =
      ((spell q ts s).1 ++ (spell q us (spell q ts s).2).1, (spell q us (spell q ts s).2).2) := by
  induction ts generalizing s with
  | nil => exact Prod.ext (by simp [spell]) rfl
  | cons t ts ih => cases t <;> simp [spell, ih, String.append_assoc]

@[simp] theorem packages_append (ts us : List Token) :
    packages (ts ++ us) = packages ts ++ packages us := by
  induction ts with
  | nil => rfl
  | cons t ts ih => cases t <;> simp [packages, ih]

/-- `spell` asks `q` about the packages of `ts` in order, and about nothing else. -/
theorem spell_snd (q : Qualifier σ) (ts : List Token) (s : σ) :
    (spell q ts s).2 = q.after (packages ts) s := by
  induction ts generalizing s with
  | nil => rfl
  | cons t ts ih => cases t <;> simp [spell, packages, ih, Qualifier.after]

theorem spell_fst {q : Qualifier σ} {answer : PackageRef → String} (hq : q.Answers answer)
    (ts : List Token) (s : σ) : (spell q ts s).1 = written answer ts := by
  induction ts generalizing s with
  | nil => rfl
  | cons t ts ih => cases t <;> simp [spell, written, ih, hq _ s]

end Token

/-! ## The tokens of a type -/

namespace TypePart

/-- The tokens of a part, given those of the types in it by `type`. -/
def tokens? (type : TypeId → Option (List Token)) : TypePart → Option (List Token)
  | .text s => some [.text s]
  | .package p => some [.package p]
  | .type id => type id

/-- The tokens of parts one after the other, given those of the types in them by `type`. -/
def allTokens? (type : TypeId → Option (List Token)) : List TypePart → Option (List Token)
  | [] => some []
  | part :: rest => (part.tokens? type).bind fun ts => (allTokens? type rest).map (ts ++ ·)

end TypePart

namespace TypeGraph

open TypePart

variable {σ : Type}

/-- The tokens of a type inside the types of `active`. -/
def tokens? (g : TypeGraph) : Nat → List TypeId → TypeId → Option (List Token)
  | 0, _, _ => none
  | depth + 1, active, id =>
    match g.get? id with
    | none => some [.text "invalid type"]
    | some node =>
      if id ∈ active then some [.text "<cycle>"]
      else allTokens? (tokens? g depth (node.enter id active)) (g.parts node)

/-- The tokens of `id`, where `g.hasText id`. -/
def tokens (g : TypeGraph) (id : TypeId) : List Token :=
  (g.tokens? g.depth [] id).getD []

/-- The text of `id` with the fixed answers `answer` for the packages. -/
def textWith (g : TypeGraph) (answer : PackageRef → String) (id : TypeId) : String :=
  Token.written answer (g.tokens id)

theorem writePart?_eq {q : Qualifier σ} {type : TypeId → StateT σ Option String}
    {tokens : TypeId → Option (List Token)}
    (h : ∀ id s, type id s = (tokens id).map fun ts => Token.spell q ts s) (part : TypePart)
    (s : σ) :
    writePart? q type part s = (part.tokens? tokens).map fun ts => Token.spell q ts s := by
  cases part with
  | text t =>
    show some (t, s) = some (t ++ "", s)
    rw [String.append_empty]
  | package p =>
    show some (dotted (q p s).1, (q p s).2) = some (dotted (q p s).1 ++ "", (q p s).2)
    rw [String.append_empty]
  | type id => exact h id s

theorem writeParts?_nil (q : Qualifier σ) (type : TypeId → StateT σ Option String) (s : σ) :
    writeParts? q type [] s = some ("", s) := rfl

theorem writeParts?_cons (q : Qualifier σ) (type : TypeId → StateT σ Option String)
    (part : TypePart) (rest : List TypePart) (s : σ) :
    writeParts? q type (part :: rest) s =
      (writePart? q type part s).bind fun r =>
        (writeParts? q type rest r.2).map fun r' => (r.1 ++ r'.1, r'.2) := by
  have hrest : ∀ s, writeParts? q type rest s =
      (rest.mapM (writePart? q type) s).bind fun r => some (String.join r.1, r.2) := fun _ => rfl
  rw [writeParts?, List.mapM_cons]
  show ((writePart? q type part s).bind fun r => (rest.mapM (writePart? q type) r.2).bind
    fun r' => some (r.1 :: r'.1, r'.2)).bind (fun r => some (String.join r.1, r.2)) = _
  cases writePart? q type part s with
  | none => rfl
  | some r =>
    rw [Option.bind_some, Option.bind_some, hrest]
    cases rest.mapM (writePart? q type) r.2 with
    | none => rfl
    | some r' =>
      show some (String.join (r.1 :: r'.1), r'.2) = some (r.1 ++ String.join r'.1, r'.2)
      rw [String.join_cons]

/-- `writeParts?` spells the tokens of `parts`, if that holds of the types in them. -/
theorem writeParts?_eq {q : Qualifier σ} {type : TypeId → StateT σ Option String}
    {tokens : TypeId → Option (List Token)}
    (h : ∀ id s, type id s = (tokens id).map fun ts => Token.spell q ts s)
    (parts : List TypePart) (s : σ) :
    writeParts? q type parts s = (allTokens? tokens parts).map fun ts => Token.spell q ts s := by
  induction parts generalizing s with
  | nil => rw [writeParts?_nil]; rfl
  | cons part rest ih =>
    rw [writeParts?_cons, writePart?_eq h, allTokens?]
    cases part.tokens? tokens with
    | none => rfl
    | some ts =>
      rw [Option.map_some, Option.bind_some, Option.bind_some, ih, Option.map_map, Option.map_map]
      congr 1
      funext us
      exact (Token.spell_append q ts us s).symm

/-- `write?` spells the tokens of `id`. -/
theorem write?_eq (g : TypeGraph) (q : Qualifier σ) (depth : Nat) (active : List TypeId)
    (id : TypeId) (s : σ) :
    g.write? q depth active id s =
      (g.tokens? depth active id).map fun ts => Token.spell q ts s := by
  induction depth generalizing active id s with
  | zero => rfl
  | succ depth ih =>
    rw [write?, tokens?]
    cases g.get? id with
    | none => rfl
    | some node =>
      by_cases hmem : id ∈ active
      · simp only [if_pos hmem]; rfl
      · simp only [if_neg hmem]
        exact writeParts?_eq (fun t s => ih _ t s) _ s

theorem typeText?_eq (g : TypeGraph) (q : Qualifier σ) (id : TypeId) (s : σ) :
    g.typeText? q id s = (g.tokens? g.depth [] id).map fun ts => Token.spell q ts s :=
  g.write?_eq q g.depth [] id s

/-! ## Types that have a text -/

theorem hasText_eq (g : TypeGraph) (id : TypeId) :
    g.hasText id = (g.tokens? g.depth [] id).isSome := by
  rw [hasText, structuralText?, typeText?_eq, Option.isSome_map, Option.isSome_map]

theorem tokens?_of_hasText {g : TypeGraph} {id : TypeId} (h : g.hasText id = true) :
    g.tokens? g.depth [] id = some (g.tokens id) := by
  rw [hasText_eq] at h
  obtain ⟨ts, hts⟩ := Option.isSome_iff_exists.1 h
  rw [tokens, hts, Option.getD_some]

/-- Where `id` has a text, it is written by spelling `g.tokens id`. -/
theorem typeText?_of_hasText {g : TypeGraph} {id : TypeId} (h : g.hasText id = true)
    (q : Qualifier σ) (s : σ) : g.typeText? q id s = some (Token.spell q (g.tokens id) s) := by
  rw [typeText?_eq, tokens?_of_hasText h, Option.map_some]

/-- Where `id` has no text, no qualifier gives it one. -/
theorem typeText?_of_not_hasText {g : TypeGraph} {id : TypeId} (h : g.hasText id = false)
    (q : Qualifier σ) (s : σ) : g.typeText? q id s = none := by
  rw [hasText_eq, Option.isSome_eq_false_iff, Option.isNone_iff_eq_none] at h
  rw [typeText?_eq, h, Option.map_none]

theorem all_hasText_congr {g g' : TypeGraph} {ts : List TypeId}
    (h : ∀ t ∈ ts, g'.hasText t = g.hasText t) : ts.all g'.hasText = ts.all g.hasText := by
  rw [Bool.eq_iff_iff, List.all_eq_true, List.all_eq_true]
  exact forall₂_congr fun t ht => by rw [h t ht]

end TypeGraph

end Understudy
