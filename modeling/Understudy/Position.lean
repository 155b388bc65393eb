/-!
# Source positions

A position is a file, a line and a column. Positions are ordered by file first, so those of
different files compare as if the files stood one after the other.
-/

namespace Understudy

/-- The number of a source file, which a `Position` refers to. -/
abbrev FileId := UInt32

/-- A place in the source file `file`. -/
structure Position where
  file : FileId
  line : UInt32
  column : UInt32
deriving DecidableEq, Repr, Inhabited

/-- Positions compare by `file`, then `line`, then `column`. -/
instance : Ord Position where
  compare p q :=
    ((compare p.file q.file).then (compare p.line q.line)).then (compare p.column q.column)

/-- Whether `p` is not behind `q`. -/
def Position.le (p q : Position) : Bool :=
  (compare p q).isLE

end Understudy
