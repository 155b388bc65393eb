import Understudy.Graph
import Understudy.Import
import Understudy.Path

/-!
# Packages

A package as the type checker leaves it: its source files with the type declarations in them, its
objects, the names in its scope, its types, and what the checker complained about.
-/

namespace Understudy

/-- The number of an object in its `Package`. -/
abbrev ObjectId := UInt32

/-- What kind of thing an `Object` is. -/
inductive ObjectKind
  | typeName
  | var
  | const
  | func
deriving DecidableEq, Repr, Inhabited

/-- Something that a package declares as `name`. -/
structure Object where
  name : String
  kind : ObjectKind
  type : TypeId
  position : Position
deriving DecidableEq, Repr, Inhabited

/-- One name of a type declaration, with its `object` if the checker recorded one. -/
structure TypeSpec where
  name : String
  object : Option ObjectId
deriving DecidableEq, Repr, Inhabited

/-- A type declaration with the comment lines `doc` before it. -/
structure Decl where
  doc : List String
  specs : List TypeSpec
deriving DecidableEq, Repr, Inhabited

/-- A source file with its type declarations `decls`. -/
structure SourceFile where
  id : FileId
  path : Path
  imports : List Import
  decls : List Decl
deriving DecidableEq, Repr, Inhabited

/-- A complaint `message` of the type checker. -/
structure Diagnostic where
  location : Option String
  message : String
deriving DecidableEq, Repr, Inhabited

/-- The complaint `d` behind its location. -/
def Diagnostic.text (d : Diagnostic) : String :=
  match d.location with
  | some location => location ++ ": " ++ d.message
  | none => d.message

/-- The names in the scope of a package, each with its object, in `ascending` order. -/
structure Scope where
  entries : List (String × ObjectId)
  ascending : entries.Pairwise fun a b => a.1 < b.1 := by simp
deriving DecidableEq, Repr

namespace Scope

instance : Inhabited Scope := ⟨{ entries := [] }⟩

def empty : Scope := { entries := [] }

/-- The object of `name`. -/
def find? (s : Scope) (name : String) : Option ObjectId :=
  (s.entries.find? (·.1 = name)).map (·.2)

/-- Puts an entry for `name` in its place, instead of one with that name. -/
def insertEntry (name : String) (id : ObjectId) :
    List (String × ObjectId) → List (String × ObjectId)
  | [] => [(name, id)]
  | (n, i) :: rest =>
    if name < n then (name, id) :: (n, i) :: rest
    else if n < name then (n, i) :: insertEntry name id rest
    else (name, id) :: rest

theorem mem_insertEntry {name : String} {id : ObjectId} {l : List (String × ObjectId)}
    {e : String × ObjectId} (h : e ∈ insertEntry name id l) : e = (name, id) ∨ e ∈ l := by
  induction l with
  | nil => simpa [insertEntry] using h
  | cons a rest ih =>
    rw [insertEntry] at h
    split at h
    · simpa using h
    · split at h
      · rcases List.mem_cons.1 h with h | h
        · exact .inr (h ▸ List.mem_cons_self)
        · exact (ih h).imp_right (List.mem_cons_of_mem _)
      · rcases List.mem_cons.1 h with h | h
        · exact .inl h
        · exact .inr (List.mem_cons_of_mem _ h)

theorem pairwise_insertEntry {name : String} {id : ObjectId} {l : List (String × ObjectId)}
    (h : l.Pairwise fun a b => a.1 < b.1) :
    (insertEntry name id l).Pairwise fun a b => a.1 < b.1 := by
  induction l with
  | nil => simp [insertEntry]
  | cons a rest ih =>
    obtain ⟨ha, hrest⟩ := List.pairwise_cons.1 h
    rw [insertEntry]
    split
    next hlt =>
      refine List.pairwise_cons.2 ⟨?_, h⟩
      intro b hb
      rcases List.mem_cons.1 hb with rfl | hb
      · exact hlt
      · exact String.lt_trans hlt (ha b hb)
    next hnlt =>
      split
      next hlt =>
        refine List.pairwise_cons.2 ⟨?_, ih hrest⟩
        intro b hb
        rcases mem_insertEntry hb with rfl | hb
        · exact hlt
        · exact ha b hb
      next hnlt' =>
        have heq : name = a.1 := String.le_antisymm hnlt' hnlt
        subst heq
        exact List.pairwise_cons.2 ⟨ha, hrest⟩

/-- Sets the object of `name` to `id`. -/
def insert (s : Scope) (name : String) (id : ObjectId) : Scope where
  entries := insertEntry name id s.entries
  ascending := pairwise_insertEntry s.ascending

/-- A scope from `entries` in any order; of two with one name the later counts. -/
def ofList (entries : List (String × ObjectId)) : Scope :=
  entries.foldl (fun s e => s.insert e.1 e.2) empty

end Scope

/-- A package that was loaded and type-checked, with its complaints in `diagnostics`. -/
structure Package where
  name : String
  path : String
  files : List SourceFile
  objects : Array Object
  scope : Scope
  types : TypeGraph
  diagnostics : List Diagnostic
deriving DecidableEq, Repr, Inhabited

namespace Package

/-- How named types of `p` refer to it. -/
def ref (p : Package) : PackageRef := ⟨p.path, p.name⟩

/-- The object with the number `id`. -/
def object? (p : Package) (id : ObjectId) : Option Object := p.objects[id.toNat]?

/-- The object of `name` in the scope of `p`. -/
def lookup? (p : Package) (name : String) : Option ObjectId := p.scope.find? name

/-- The first source file with the number `id`. -/
def file? (p : Package) (id : FileId) : Option SourceFile := p.files.find? (·.id = id)

end Package

end Understudy
