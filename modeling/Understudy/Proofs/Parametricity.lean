import Understudy.Proofs.Printed

/-!
# Writing apart from the qualifier

What a qualifier contributes to a written type are its answers, one for each package in the order in
which the packages are met. All else is fixed by the graph. So texts that are written through
different qualifiers, such as a signature in a mock and the structural text by which types are told
apart, differ in their prefixes only.

* `Qualifier.answers`, `Qualifier.logged`: the answers of a qualifier in turn, and a qualifier that
  lists the packages it is asked about.
* `Token.filled`, `Token.spell_eq`: spelling tokens is filling the answers in.
* `TypeGraph.signatureTokens?`, `TypeGraph.packages_of_signatureTokens?`: the tokens of a signature,
  and the packages among them.
* `TypeGraph.texts_parametric`: types and signatures are written by filling answers in.
-/

namespace Understudy

/-! ## Questions in turn -/

namespace Qualifier

variable {σ : Type}

/-- The answers of `q` about packages that it is asked about one after the other. -/
def answers (q : Qualifier σ) : List PackageRef → σ → List String
  | [], _ => []
  | p :: ps, s => (q p s).1 :: answers q ps (q p s).2

/-- The qualifier `q` with a list of the packages it was asked about. -/
def logged (q : Qualifier σ) : Qualifier (σ × List PackageRef) :=
  fun p s => ((q p s.1).1, (q p s.1).2, s.2 ++ [p])

theorem answers_logged (q : Qualifier σ) (ps : List PackageRef) (s : σ) (log : List PackageRef) :
    q.logged.answers ps (s, log) = q.answers ps s := by
  induction ps generalizing s log with
  | nil => rfl
  | cons p ps ih => exact congrArg ((q p s).1 :: ·) (ih (q p s).2 (log ++ [p]))

theorem after_logged (q : Qualifier σ) (ps : List PackageRef) (s : σ) (log : List PackageRef) :
    q.logged.after ps (s, log) = (q.after ps s, log ++ ps) := by
  induction ps generalizing s log with
  | nil => simp [after]
  | cons p ps ih =>
    have hrest := ih (q p s).2 (log ++ [p])
    rw [List.append_assoc] at hrest
    exact hrest

theorem answers_eq_map {q : Qualifier σ} {answer : PackageRef → String} (hq : q.Answers answer)
    (ps : List PackageRef) (s : σ) : q.answers ps s = ps.map answer := by
  induction ps generalizing s with
  | nil => rfl
  | cons p ps ih => rw [answers, hq p s, ih, List.map_cons]

end Qualifier

namespace Token

variable {σ : Type}

/-- Tokens with one of `answers` in the place of each package, in order. -/
def filled : List Token → List String → String
  | [], _ => ""
  | .text t :: rest, answers => t ++ filled rest answers
  | .package _ :: rest, answer :: answers => dotted answer ++ filled rest answers
  | .package _ :: _, [] => ""

/-- `spell` asks `q` about the packages of `ts` in order and fills the answers in. -/
theorem spell_eq (q : Qualifier σ) (ts : List Token) (s : σ) :
    spell q ts s = (filled ts (q.answers (packages ts) s), q.after (packages ts) s) := by
  induction ts generalizing s with
  | nil => rfl
  | cons t ts ih =>
    cases t with
    | text t => simp only [spell, packages, filled, ih]
    | package p => simp only [spell, packages, filled, Qualifier.answers, Qualifier.after, ih,
        List.foldl_cons]

/-- `write` follows the tokens `ts` if it fills answers into them, whatever the qualifier and its
state: it asks about the packages among `ts`, each as often as it is there and in order, and leaves
the state that these questions lead to. -/
def FollowedBy (ts : List Token) (write : (σ : Type) → Qualifier σ → StateT σ Option String) :
    Prop :=
  ∀ (σ : Type) (q : Qualifier σ) (s : σ),
    write σ q s = some (filled ts (q.answers (packages ts) s), q.after (packages ts) s) ∧
    write _ q.logged (s, []) =
      some (filled ts (q.answers (packages ts) s), q.after (packages ts) s, packages ts)

theorem followedBy_of_spell {ts : List Token}
    {write : (σ : Type) → Qualifier σ → StateT σ Option String}
    (h : ∀ (σ : Type) (q : Qualifier σ) (s : σ), write σ q s = some (spell q ts s)) :
    FollowedBy ts write := by
  intro σ q s
  constructor
  · rw [h, spell_eq]
  · rw [h, spell_eq, q.answers_logged, q.after_logged, List.nil_append]

end Token

/-! ## Types and signatures -/

namespace TypeGraph

variable {σ : Type}

/-- The tokens of a signature without `func`. -/
def signatureTokens? (g : TypeGraph) (id : TypeId) : Option (List Token) :=
  TypePart.allTokens? (g.tokens? g.depth []) (g.signatureParts id)

theorem signatureText?_eq (g : TypeGraph) (q : Qualifier σ) (id : TypeId) (s : σ) :
    g.signatureText? q id s = (g.signatureTokens? id).map fun ts => Token.spell q ts s :=
  writeParts?_eq (fun t s => g.write?_eq q g.depth [] t s) (g.signatureParts id) s

theorem packages_of_tokens? {g : TypeGraph} {id : TypeId} {ts : List Token}
    (h : g.tokens? g.depth [] id = some ts) : Token.packages ts = g.printedPackages id := by
  rw [← packages_tokens, tokens, h, Option.getD_some]

theorem flatten_of_mapM_printedPackages? {g : TypeGraph} {ids : List TypeId}
    {inner : List (List PackageRef)}
    (h : ids.mapM (g.printedPackages? g.depth []) = some inner) :
    inner.flatten = ids.flatMap g.printedPackages := by
  induction ids generalizing inner with
  | nil =>
    obtain rfl : [] = inner := Option.some.inj h
    rfl
  | cons id ids ih =>
    rw [List.mapM_cons] at h
    obtain ⟨ps, hps, h⟩ := Option.bind_eq_some_iff.1 h
    obtain ⟨rest, hrest, h⟩ := Option.bind_eq_some_iff.1 h
    obtain rfl : ps :: rest = inner := Option.some.inj h
    rw [List.flatten_cons, List.flatMap_cons, ih hrest, printedPackages, hps, Option.getD_some]

/-- The packages of the signature `id` are those that its slots print, in order. -/
theorem packages_of_signatureTokens? {g : TypeGraph} {id : TypeId} {ts : List Token}
    (h : g.signatureTokens? id = some ts) :
    Token.packages ts = (g.signatureTypes id).flatMap g.printedPackages := by
  have hpackages := packages_allTokens? (g.packages_tokens? g.depth []) (g.signatureParts id)
  rw [← signatureTokens?, h, ← partPackages?_marks, marks_signatureParts, partPackages?_types]
    at hpackages
  obtain ⟨inner, hinner, heq⟩ := Option.map_eq_some_iff.1 hpackages.symm
  rw [← heq, flatten_of_mapM_printedPackages? hinner]

/-- If `typeText?` writes `id` through one qualifier `q`, it writes it through all of them by the
same tokens `ts`, into which the answers are filled. So does `signatureText?` with a signature. The
packages among `ts` are those of the named types and aliases that are printed. -/
theorem texts_parametric (g : TypeGraph) (id : TypeId) (q : Qualifier σ) (s : σ) :
    ((g.typeText? q id s).isSome →
      ∃ ts : List Token, Token.packages ts = g.printedPackages id ∧
        Token.FollowedBy ts fun _ q => g.typeText? q id) ∧
    ((g.signatureText? q id s).isSome →
      ∃ ts : List Token, Token.packages ts = (g.signatureTypes id).flatMap g.printedPackages ∧
        Token.FollowedBy ts fun _ q => g.signatureText? q id) := by
  constructor
  · intro h
    rw [typeText?_eq, Option.isSome_map] at h
    obtain ⟨ts, hts⟩ := Option.isSome_iff_exists.1 h
    refine ⟨ts, packages_of_tokens? hts, Token.followedBy_of_spell fun σ q s => ?_⟩
    rw [typeText?_eq, hts, Option.map_some]
  · intro h
    rw [signatureText?_eq, Option.isSome_map] at h
    obtain ⟨ts, hts⟩ := Option.isSome_iff_exists.1 h
    refine ⟨ts, packages_of_signatureTokens? hts, Token.followedBy_of_spell fun σ q s => ?_⟩
    rw [signatureText?_eq, hts, Option.map_some]

/-- A map and a signature over the packages `time` and `context`. -/
def waiting : TypeGraph where
  nodes := #[
    .struct [],
    .named "Time" (some ⟨"time", "time"⟩) [] [] 0,
    .slice 1,
    .named "Context" (some ⟨"context", "context"⟩) [] [] 0,
    .map 1 3,
    .signature [⟨"ctx", 3⟩, ⟨"until", 2⟩] [⟨"", 1⟩] true]

/-- In `waiting` the map has a text, and so has the signature. -/
theorem texts_parametric_waiting :
    ((waiting.typeText? .fullPath 4 ()).isSome ∧
      ∃ ts : List Token, Token.packages ts = [⟨"time", "time"⟩, ⟨"context", "context"⟩] ∧
        Token.FollowedBy ts fun _ q => waiting.typeText? q 4) ∧
    ((waiting.signatureText? .fullPath 5 ()).isSome ∧
      ∃ ts : List Token,
        Token.packages ts = [⟨"context", "context"⟩, ⟨"time", "time"⟩, ⟨"time", "time"⟩] ∧
        Token.FollowedBy ts fun _ q => waiting.signatureText? q 5) :=
  ⟨⟨rfl, (waiting.texts_parametric 4 .fullPath ()).1 rfl⟩,
    ⟨rfl, (waiting.texts_parametric 5 .fullPath ()).2 rfl⟩⟩

end TypeGraph

end Understudy
