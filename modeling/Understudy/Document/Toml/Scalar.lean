import Understudy.Document.Word

/-!
# Numbers and dates in TOML

The words that stand for a value without quotes: truth values, integers of 64 bits in four bases,
decimal fractions, dates and times. A date is kept as written.
-/

namespace Understudy.Document.Toml

/-- Digits of the kind `p` with single underscores between them, which are taken out. -/
def grouped? (p : Char → Bool) : List Char → Option (List Char)
  | [] => none
  | [c] => if p c then some [c] else none
  | c :: '_' :: rest => if p c then (grouped? p rest).map (c :: ·) else none
  | c :: rest => if p c then (grouped? p rest).map (c :: ·) else none

/-- The decimal digits `cs`, if they start with a zero only where there is no other. -/
def wholePart? (cs : List Char) : Option (List Char) := do
  let ds ← grouped? Char.isDigit cs
  if ds.length > 1 && ds.head? = some '0' then none else some ds

/-- Splits a sign off, `+` or `-`, and tells whether it is the latter. -/
def signed : List Char → Bool × List Char
  | '-' :: cs => (true, cs)
  | '+' :: cs => (false, cs)
  | cs => (false, cs)

/-- The integer `n` of 64 bits, or its negative. -/
def ofInteger (negative : Bool) (n : Nat) : Option Value :=
  if negative && 0 < n then
    if n ≤ Nat.pow 2 63 then some (.int (-(n : Int))) else none
  else if n < Nat.pow 2 63 then some (.nat n) else none

/-- The integer `cs` in a `base` other than ten, behind its mark. -/
def based? (base : Nat) (cs : List Char) : Option Value := do
  let ds ← grouped? (fun c => (Word.digit? base c).isSome) cs
  ofInteger false (← Word.digits? base ds)

def integer? (cs : List Char) : Option Value :=
  match cs with
  | '0' :: 'x' :: rest => based? 16 rest
  | '0' :: 'o' :: rest => based? 8 rest
  | '0' :: 'b' :: rest => based? 2 rest
  | _ => do
    let (negative, body) := signed cs
    ofInteger negative (Nat.ofDigitChars 10 (← wholePart? body) 0)

/-- The exponent `cs` behind its letter, and whether it is negative. -/
def exponent? (cs : List Char) : Option (Bool × Nat) := do
  let (negative, body) := signed cs
  return (negative, Nat.ofDigitChars 10 (← grouped? Char.isDigit body) 0)

/-- The number `cs` with a fraction or an exponent, or one of the special ones. Only a positive
number may not exceed all doubles. -/
def decimal? (cs : List Char) : Option Value := do
  let (negative, body) := signed cs
  if body = ['i', 'n', 'f'] || body = ['n', 'a', 'n'] then
    return .number (String.ofList cs)
  let (mantissa, tail) := body.span fun c => c ≠ 'e' && c ≠ 'E'
  let exp? ← match tail with
    | [] => some none
    | _ :: exp => some <$> exponent? exp
  let (whole, tail) := mantissa.span (· ≠ '.')
  let fraction ← match tail with
    | [] => some []
    | _ :: fraction => grouped? Char.isDigit fraction
  if fraction.isEmpty && exp?.isNone then none
  let digits := Nat.ofDigitChars 10 ((← wholePart? whole) ++ fraction) 0
  let fits := match exp? with
    | some (true, n) => Double.fits digits 0 (fraction.length + n)
    | some (false, n) => Double.fits digits n fraction.length
    | none => Double.fits digits 0 fraction.length
  if negative || fits then return .number (String.ofList cs) else none

/-! ## Dates -/

/-- The number `cs` of so many `digits`, from `lo` to `hi`. -/
def bounded? (digits lo hi : Nat) (cs : List Char) : Option Nat := do
  if cs.length ≠ digits || !cs.all Char.isDigit then none
  let n := Nat.ofDigitChars 10 cs 0
  if lo ≤ n && n ≤ hi then some n else none

def isLeapYear (year : Nat) : Bool :=
  year % 4 = 0 && (year % 100 ≠ 0 || year % 400 = 0)

def daysOfMonth (year month : Nat) : Nat :=
  if month = 2 then (if isLeapYear year then 29 else 28)
  else if [4, 6, 9, 11].contains month then 30
  else 31

/-- Splits a text at every place of `sep`. -/
def splitAtChar (sep : Char) : List Char → List (List Char)
  | [] => [[]]
  | c :: cs =>
    if c = sep then [] :: splitAtChar sep cs
    else
      match splitAtChar sep cs with
      | [] => [[c]]
      | s :: rest => (c :: s) :: rest

def isDate (cs : List Char) : Bool :=
  match splitAtChar '-' cs with
  | [y, m, d] =>
    (do
      let year ← bounded? 4 0 9999 y
      let month ← bounded? 2 1 12 m
      bounded? 2 1 (daysOfMonth year month) d).isSome
  | _ => false

/-- Whether `cs` is hours, minutes and seconds, with a fraction of a second. A minute may have a
leap second. -/
def isTime (cs : List Char) : Bool :=
  let (clock, tail) := cs.span (· ≠ '.')
  let fractionFits := match tail with
    | [] => true
    | _ :: fraction => !fraction.isEmpty && fraction.all Char.isDigit
  fractionFits &&
    match splitAtChar ':' clock with
    | [h, m, s] =>
      (bounded? 2 0 23 h).isSome && (bounded? 2 0 59 m).isSome && (bounded? 2 0 60 s).isSome
    | _ => false

/-- Whether `cs` is a distance to universal time. -/
def isOffset (cs : List Char) : Bool :=
  match cs with
  | ['Z'] | ['z'] => true
  | sign :: rest =>
    (sign = '+' || sign = '-') &&
      match splitAtChar ':' rest with
      | [h, m] => (bounded? 2 0 23 h).isSome && (bounded? 2 0 59 m).isSome
      | _ => false
  | [] => false

/-- Whether `cs` is a time with or without an offset. -/
def isOffsetTime (cs : List Char) : Bool :=
  let (time, offset) := cs.span fun c => c ∉ ['Z', 'z', '+', '-']
  isTime time && (offset.isEmpty || isOffset offset)

/-- Whether `cs` is a date with or without a time behind it, or a time alone. -/
def isDateTime (cs : List Char) : Bool :=
  let tail := cs.drop 10
  isTime cs || isDate (cs.take 10) &&
    match tail with
    | [] => true
    | sep :: time => (sep = 'T' || sep = 't' || sep = ' ') && isOffsetTime time

/-- What the word `cs` without quotes stands for. -/
def word? (cs : List Char) : Option Value :=
  if cs = ['t', 'r', 'u', 'e'] then some (.bool true)
  else if cs = ['f', 'a', 'l', 's', 'e'] then some (.bool false)
  else if isDateTime cs then some (.number (String.ofList cs))
  else (integer? cs).or (decimal? cs)

end Understudy.Document.Toml
