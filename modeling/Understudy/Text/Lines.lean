/-!
# Lines of a text

A text falls into lines at its line breaks. There is one line more than there are breaks.
-/

namespace Understudy.Text

/-- The lines that characters fall into, parted by `\n`. -/
def splitLines : List Char → List (List Char)
  | [] => [[]]
  | c :: cs =>
    if c = '\n' then [] :: splitLines cs
    else
      match splitLines cs with
      | [] => [[c]]
      | l :: ls => (c :: l) :: ls

/-- The lines of `s`. -/
def lines (s : String) : List String := (splitLines s.toList).map String.ofList

end Understudy.Text
