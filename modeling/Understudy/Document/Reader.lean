/-!
# Reading characters

A reader takes characters off the front of a text, or fails.
-/

namespace Understudy.Document

/-- Takes a value off the front of a text. `none` stands for a text that is refused. -/
abbrev Reader := StateT (List Char) Option

namespace Reader

/-- The next character, left in place. -/
def peek? : Reader (Option Char) := fun cs => some (cs.head?, cs)

/-- The next character. -/
def next : Reader Char
  | [] => none
  | c :: cs => some (c, cs)

/-- What is left. -/
def rest : Reader (List Char) := fun cs => some (cs, cs)

/-- Takes `s` off if it comes next, and tells whether it did. -/
def accept (s : String) : Reader Bool := fun cs =>
  if s.toList.isPrefixOf cs then some (true, cs.drop s.toList.length) else some (false, cs)

/-- Takes `s` off, which has to come next. -/
def expect (s : String) : Reader Unit := do
  if !(← accept s) then failure

/-- Takes off the longest run of characters of the kind `p`. -/
def takeWhile (p : Char → Bool) : Reader (List Char) := fun cs =>
  some (cs.takeWhile p, cs.dropWhile p)

/-- Succeeds at the end of the text. -/
def atEnd : Reader Unit
  | [] => some ((), [])
  | _ :: _ => none

/-- Reads the whole text `s` by `r`. -/
def run? {α : Type} (r : Reader α) (s : String) : Option α :=
  match (do let a ← r; atEnd; return a : Reader α) s.toList with
  | some (a, _) => some a
  | none => none

end Reader

end Understudy.Document
