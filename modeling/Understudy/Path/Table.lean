import Understudy.Path

/-!
# Tables keyed by path

Entries in path order. Two spellings of one path are one key, and the first spelling stays.
-/

namespace Understudy.Path

/-- Entries of type `α` in path order, one for each path. -/
abbrev Table (α : Type) := List (Path × α)

namespace Table

variable {α β : Type}

/-- The value at the path `p`. -/
def find? (p : Path) : Table α → Option α
  | [] => none
  | (q, a) :: rest =>
    match compare p q with
    | .eq => some a
    | _ => find? p rest

/-- Replaces the value at the path `p` by `f` of it, or of nothing if there is none. -/
def alter (p : Path) (f : Option α → α) : Table α → Table α
  | [] => [(p, f none)]
  | (q, a) :: rest =>
    match compare p q with
    | .lt => (p, f none) :: (q, a) :: rest
    | .eq => (q, f (some a)) :: rest
    | .gt => (q, a) :: alter p f rest

end Table

end Understudy.Path
