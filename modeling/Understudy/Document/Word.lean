import Understudy.Document.Double
import Understudy.Document.Value

/-!
# Words without quotes

A word without quotes stands for nothing, a truth value, a number, or for itself. Whole numbers are
written in four bases. A whole number beyond 64 bits is unfit up to 128 bits, and behind that a
number like any other.

* `Word.toValue`: what a word stands for.
* `Value.resolve`: decides everything that a document left open.
-/

namespace Understudy.Document

namespace Word

/-- Whether `s` is one of the words for nothing. -/
def isNull (s : String) : Bool :=
  s = "null" || s = "Null" || s = "NULL" || s = "~"

/-- The truth value that `s` stands for. -/
def bool? (s : String) : Option Bool :=
  if s = "true" || s = "True" || s = "TRUE" then some true
  else if s = "false" || s = "False" || s = "FALSE" then some false
  else none

/-! ## Whole numbers -/

/-- The value of the digit `c` in a `base` up to sixteen. -/
def digit? (base : Nat) (c : Char) : Option Nat :=
  let value :=
    if c.isDigit then some (c.toNat - '0'.toNat)
    else if 'a' ≤ c ∧ c ≤ 'f' then some (c.toNat - 'a'.toNat + 10)
    else if 'A' ≤ c ∧ c ≤ 'F' then some (c.toNat - 'A'.toNat + 10)
    else none
  value.filter (· < base)

/-- The number that the digits `cs` stand for in `base`. There has to be at least one. -/
def digits? (base : Nat) (cs : List Char) : Option Nat :=
  if cs.isEmpty then none
  else cs.foldlM (fun n c => (digit? base c).map (base * n + ·)) 0

/-- Whether the digits `cs` start with a superfluous zero, which makes them a text. -/
def isPadded (cs : List Char) : Bool :=
  match cs with
  | '0' :: c :: rest => (c :: rest).all Char.isDigit
  | _ => false

/-- Takes a sign off, `+` or `-`. -/
def unsigned : List Char → List Char
  | '+' :: cs => cs
  | '-' :: cs => cs
  | cs => cs

/-- The number that digits behind a mark for their base stand for, such as `0x` for sixteen. -/
def magnitude? : List Char → Option Nat
  | '0' :: 'x' :: rest => digits? 16 rest
  | '0' :: 'o' :: rest => digits? 8 rest
  | '0' :: 'b' :: rest => digits? 2 rest
  | cs => if isPadded cs then none else digits? 10 cs

/-- The number that `s`, with a plus sign or none, stands for. -/
def positive? (s : String) : Option Nat :=
  match s.toList with
  | '+' :: cs => magnitude? cs
  | cs => magnitude? cs

/-- The number whose negative `s`, with a minus sign, stands for. -/
def negative? (s : String) : Option Nat :=
  match s.toList with
  | '-' :: cs => magnitude? cs
  | _ => none

/-- The natural number below `2 ^ 64` that a word stands for. -/
def nat? (s : String) : Option Nat := (positive? s).filter (· < UInt64.size)

/-- The value of the whole number `s`. Between 64 and 128 bits there is none. -/
def whole? (s : String) : Option Value :=
  match positive? s, negative? s with
  | some n, _ =>
    if n < UInt64.size then some (.nat n)
    else if n < Nat.pow 2 128 then some .unfit
    else none
  | none, some n =>
    if n ≤ Nat.pow 2 63 then some (.int (-(n : Int)))
    else if n ≤ Nat.pow 2 127 then some .unfit
    else none
  | none, none => none

/-! ## Other numbers -/

/-- The digits of the exponent `cs` and whether it is negative, behind its letter. -/
def exponent? (cs : List Char) : Option (Bool × Nat) :=
  (digits? 10 (unsigned cs)).map fun n => (cs.head? = some '-', n)

/-- Whether `s` is a decimal number with a sign, a fraction or an exponent, and no larger than all
doubles. -/
def isDecimal (s : String) : Bool :=
  let cs := unsigned s.toList
  let whole := cs.takeWhile Char.isDigit
  let rest := cs.dropWhile Char.isDigit
  let (fraction, rest) := match rest with
    | '.' :: tail => (tail.takeWhile Char.isDigit, tail.dropWhile Char.isDigit)
    | _ => ([], rest)
  let exponent := match rest with
    | [] => some (false, 0)
    | e :: tail => if e = 'e' || e = 'E' then exponent? tail else none
  match exponent with
  | none => false
  | some (negative, n) =>
    let digits := Nat.ofDigitChars 10 (whole ++ fraction) 0
    !isPadded cs && !(whole.isEmpty && fraction.isEmpty) &&
      (if negative then Double.fits digits 0 (fraction.length + n)
        else Double.fits digits n fraction.length)

/-- Whether `s` stands for an infinity or for no number. -/
def isSpecial (s : String) : Bool :=
  [".inf", ".Inf", ".INF", "+.inf", "+.Inf", "+.INF", "-.inf", "-.Inf", "-.INF", ".nan", ".NaN",
    ".NAN"].contains s

/-- What the word `s` without quotes stands for. -/
def toValue (s : String) : Value :=
  if s = "" || isNull s then .null
  else
    match bool? s, whole? s with
    | some b, _ => .bool b
    | none, some v => v
    | none, none => if isDecimal s || isSpecial s then .number s else .text s

end Word

namespace Value

mutual

/-- Decides everything that a document left `plain`. Keys that are values stay such. -/
def resolve : Value → Value
  | plain s => Word.toValue s
  | list items => list (resolveItems items)
  | sequence items => list (resolveItems items)
  | record entries => record (resolveEntries entries)
  | mapping entries => mapping (resolvePairs entries)
  | v => v

def resolveItems : List Value → List Value
  | [] => []
  | v :: vs => v.resolve :: resolveItems vs

def resolveEntries : List (String × Value) → List (String × Value)
  | [] => []
  | (k, v) :: es => (k, v.resolve) :: resolveEntries es

def resolvePairs : List (Value × Value) → List (Value × Value)
  | [] => []
  | (k, v) :: es => (k.resolve, v.resolve) :: resolvePairs es

end

end Value

end Understudy.Document
