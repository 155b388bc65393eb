import Understudy.Import
import Understudy.Options

/-!
# One import list for several files

The imports of all source files and the support imports are merged into one list in which no two
imports claim the same name. Support imports come first, so they keep their names; of the others a
later one gives way to an earlier one by counting its name up.

* `Import.merged`: the list before any name is changed.
* `Import.settle`: gives each import a name that none before it has.
* `Import.aggregate`: both together.
-/

namespace Understudy.Import

/-- Whether `a` can stand before `b`: `supportImports` come first, and then the order of imports
decides. -/
def before (o : Options) (a b : Import) : Bool :=
  ((compare (o.isSupportImport b.path) (o.isSupportImport a.path)).then (compare a b)).isLE

/-- Keeps one of equal neighbours, `a` and `b`. -/
def squeeze : List Import → List Import
  | a :: b :: rest => if a = b then squeeze (b :: rest) else a :: squeeze (b :: rest)
  | l => l

/-- The `imports` of all files together with `o.supportImports`, in order and without repetition. -/
def merged (o : Options) (imports : List Import) : List Import :=
  squeeze ((imports ++ o.supportImports.map fun path => Import.mk path none).mergeSort (before o))

/-- Counts `name` up until it is not `taken`. A name that was passed is not met again, so it is left
out of what remains to be avoided. -/
def freshName (taken : List String) (name : String) : Except Name.OutOfRange String :=
  if name ∈ taken then
    match Name.increment name with
    | .error e => .error e
    | .ok next => freshName (taken.erase name) next
  else .ok name
termination_by taken.length
decreasing_by
  rename_i h
  have := List.length_erase_of_mem h
  have := List.length_pos_of_mem h
  omega

/-- Gives `i` a name that is not `taken`. An import that claims no name stays as it is. -/
def settle (taken : List String) (i : Import) : Except Name.OutOfRange Import :=
  match i.claim? with
  | none => .ok i
  | some name => do
    let free ← freshName taken name
    return if free = name then i else { i with name := some free }

/-- Settles imports one after the other. What each of them claims is `taken` for the next. -/
def settleAll (taken : List String) : List Import → Except Name.OutOfRange (List Import)
  | [] => .ok []
  | i :: rest => do
    let i ← settle taken i
    let rest ← settleAll (i.claim?.toList ++ taken) rest
    return i :: rest

/-- One list of the `imports` of all files, in which every name is claimed once. -/
def aggregate (o : Options) (imports : List Import) : Except Name.OutOfRange (List Import) :=
  settleAll [] (merged o imports)

end Understudy.Import
