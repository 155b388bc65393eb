import Understudy.Path

/-!
# Access to files

What a run needs of the place where its files are: reading a text, making directories, writing a
text. Each may fail, and a run does not ask why.
-/

namespace Understudy.Command

/-- Ways to reach files, as steps in `m`. -/
structure Files (m : Type → Type) where
  /-- The text of a file, if it can be read. -/
  read : Path → m (Option String)
  /-- Makes a directory and those above it. Tells whether it is there now. -/
  makeDirectories : Path → m Bool
  /-- Writes a file in place of what it held. Tells whether it worked. -/
  write : Path → String → m Bool

end Understudy.Command
