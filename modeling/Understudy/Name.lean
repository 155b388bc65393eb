import Understudy.Text.Quoted

/-!
# Names and their numbers

A name is a stem followed by the longest run of ASCII digits at its end. Counting the digits up
gives the next name of the same stem, which is how two equal names are told apart.
-/

namespace Understudy.Name

/-- The text after the last `/` of an import path. -/
def lastSegment (path : String) : String :=
  String.ofList (path.toList.reverse.takeWhile (· ≠ '/')).reverse

/-- The digits at the end of the name `cs`. -/
def numeral (cs : List Char) : List Char :=
  (cs.reverse.takeWhile Char.isDigit).reverse

/-- What stands before the digits at the end of the name `cs`. -/
def stem (cs : List Char) : List Char :=
  (cs.reverse.dropWhile Char.isDigit).reverse

/-- A numeral that has no successor below `2 ^ 64`. -/
structure OutOfRange where
  numeral : String
deriving DecidableEq, Repr

def OutOfRange.message (e : OutOfRange) : String :=
  "numeric component " ++ Text.quoted e.numeral ++ " of name is out of range"

/-- `name` with its number counted up by one; without a number it gets the number two. Leading zeros
of the number are lost. -/
def increment (name : String) : Except OutOfRange String :=
  let cs := name.toList
  match numeral cs with
  | [] => .ok (name ++ "2")
  | ds =>
    let next := Nat.ofDigitChars 10 ds 0 + 1
    if next < UInt64.size then .ok (String.ofList (stem cs ++ Nat.toDigits 10 next))
    else .error ⟨String.ofList ds⟩

end Understudy.Name
