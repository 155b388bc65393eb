import Understudy.Document.Reader
import Understudy.Document.Word

/-!
# Reading JSON

JSON to the letter: no comments, no commas at the end, no controls inside a text, no superfluous
zeros. A text with half a surrogate pair, a number beyond all doubles, and lists and records inside
more than 127 others are `Value.unfit`. A record with half a pair in a key is unfit as a whole.
-/

namespace Understudy.Document.Json

/-- Whether `c` is a blank between tokens. -/
def isSpace (c : Char) : Bool := c = ' ' || c = '\n' || c = '\t' || c = '\r'

def skipSpace : Reader Unit := do
  let _ ← Reader.takeWhile isSpace

/-! ## Texts -/

/-- The number that the hexadecimal digits `a`, `b`, `c` and `d` stand for. -/
def hex4? (a b c d : Char) : Option Nat := Word.digits? 16 [a, b, c, d]

/-- What a backslash and a letter stand for, such as `n` for a line end. -/
def shortEscape? : Char → Option Char
  | '"' => some '"'
  | '\\' => some '\\'
  | '/' => some '/'
  | 'b' => some '\x08'
  | 'f' => some '\x0c'
  | 'n' => some '\n'
  | 'r' => some '\r'
  | 't' => some '\t'
  | _ => none

def isHighSurrogate (n : Nat) : Bool := 0xd800 ≤ n && n < 0xdc00

def isLowSurrogate (n : Nat) : Bool := 0xdc00 ≤ n && n < 0xe000

/-- The character of the surrogate pair `high` and `low`. -/
def ofSurrogates (high low : Nat) : Char :=
  Char.ofNat (0x10000 + (high - 0xd800) * 0x400 + (low - 0xdc00))

/-- The code points up to the closing quote. Those written by number, behind a `u`, may be halves of
a pair. -/
def codePoints : List Char → Option (List Nat × List Char)
  | [] => none
  | '"' :: rest => some ([], rest)
  | '\\' :: 'u' :: a :: b :: c :: d :: rest => do
    let n ← hex4? a b c d
    let (ns, rest) ← codePoints rest
    return (n :: ns, rest)
  | '\\' :: e :: rest => do
    let c ← shortEscape? e
    let (ns, rest) ← codePoints rest
    return (c.toNat :: ns, rest)
  | c :: rest =>
    if c = '\\' || c.toNat < 0x20 then none
    else do
      let (ns, rest) ← codePoints rest
      return (c.toNat :: ns, rest)

/-- The characters of code points. Both halves of a pair are one character, and half a pair is
none. -/
def ofCodePoints? : List Nat → Option (List Char)
  | [] => some []
  | [n] => if isHighSurrogate n || isLowSurrogate n then none else some [Char.ofNat n]
  | n :: m :: rest =>
    if isHighSurrogate n && isLowSurrogate m then (ofCodePoints? rest).map (ofSurrogates n m :: ·)
    else if isHighSurrogate n || isLowSurrogate n then none
    else (ofCodePoints? (m :: rest)).map (Char.ofNat n :: ·)

/-- A text behind its opening quote, or `none` if half a pair makes it no text. -/
def text : Reader (Option String) := fun cs =>
  (codePoints cs).map fun (ns, rest) => ((ofCodePoints? ns).map String.ofList, rest)

/-! ## Numbers -/

/-- One digit or more. -/
def digits : Reader (List Char) := do
  let ds ← Reader.takeWhile Char.isDigit
  if ds.isEmpty then failure
  return ds

/-- The digits before the point, without a superfluous `0`. -/
def wholeDigits : Reader (List Char) := do
  let ds ← digits
  if ds.length > 1 && ds.head? = some '0' then failure
  return ds

/-- A sign and digits behind an `e`. -/
def exponent : Reader (List Char) := do
  let sign ← Reader.takeWhile fun c => c = '+' || c = '-'
  if sign.length > 1 then failure
  return sign ++ (← digits)

/-- An exponent behind its `e`, if there is one. -/
def exponent? : Reader (Option (List Char)) := do
  if ← Reader.accept "e" then return some (← exponent)
  else if ← Reader.accept "E" then return some (← exponent)
  else return none

/-- Takes digits into the number `n` of 64 bits as long as they fit, and counts those that are
left. -/
def absorb (n : Nat) : List Char → Nat × Nat
  | [] => (n, 0)
  | c :: cs =>
    let next := 10 * n + (c.toNat - '0'.toNat)
    if next < UInt64.size then absorb next cs else (n, cs.length + 1)

/-- The exponent that `cs`, a sign and digits, stands for. -/
def exponentOf (cs : List Char) : Int :=
  let n : Int := Nat.ofDigitChars 10 (Word.unsigned cs) 0
  if cs.head? = some '-' then -n else n

/-- Whether a number stays among the doubles. Of its digits only those count that fit in 64 bits;
the digits of `whole` that do not fit still count as powers of ten. -/
def fitsDouble (whole fraction : List Char) (exp : Int) : Bool :=
  let (n, left) := absorb 0 whole
  let (n, unused) := absorb n fraction
  Double.productFits n (exp + left - (fraction.length - unused))

/-- The whole number `n` without an exponent, if it has 64 bits. Zero has no minus sign. -/
def ofWhole? (negative : Bool) (n : Nat) : Option Value :=
  if !negative then if n < UInt64.size then some (.nat n) else none
  else if 0 < n && n ≤ Nat.pow 2 63 then some (.int (-(n : Int)))
  else none

/-- A number from its parts: the digits `whole` before the point, `fraction` behind it, and the
exponent. -/
def ofParts (negative : Bool) (whole fraction : List Char) (exp? : Option (List Char)) : Value :=
  let short := if fraction.isEmpty && exp?.isNone then
    ofWhole? negative (Nat.ofDigitChars 10 whole 0) else none
  match short with
  | some v => v
  | none =>
    if fitsDouble whole fraction (exponentOf (exp?.getD [])) then
      .number (String.ofList ((if negative then ['-'] else []) ++ whole ++
        (if fraction.isEmpty then [] else '.' :: fraction) ++
        (if exp?.isNone then [] else 'e' :: exp?.getD [])))
    else .unfit

def number : Reader Value := do
  let negative ← Reader.accept "-"
  let whole ← wholeDigits
  let fraction ← if ← Reader.accept "." then digits else pure []
  let exp? ← exponent?
  return ofParts negative whole fraction exp?

/-! ## Lists and records -/

/-- Items up to the text `close`, with commas between them. -/
def separated {α : Type} (item : Reader α) (close : String) : Nat → Reader (List α)
  | 0 => failure
  | n + 1 => do
    let a ← item
    skipSpace
    if ← Reader.accept close then return [a]
    Reader.expect ","
    skipSpace
    return a :: (← separated item close n)

/-- Items in brackets of a kind, behind the opening one and up to `close`. -/
def enclosed {α : Type} (item : Reader α) (close : String) (n : Nat) : Reader (List α) := do
  skipSpace
  if ← Reader.accept close then return []
  separated item close n

/-- An entry of a record, with a key and a `value`. -/
def entry (value : Reader Value) : Reader (Option String × Value) := do
  Reader.expect "\""
  let key ← text
  skipSpace
  Reader.expect ":"
  return (key, ← value)

/-- The record of `entries`, unless one of its keys stands for no text. -/
def ofEntries (entries : List (Option String × Value)) : Value :=
  match entries.mapM fun (key, v) => key.map fun key => (key, v) with
  | some entries => .record entries
  | none => .unfit

/-- A value with at most `n` values inside one another and next to one another. -/
def value : Nat → Reader Value
  | 0 => failure
  | n + 1 => do
    skipSpace
    match ← Reader.peek? with
    | some '[' => do
      Reader.expect "["
      return .list (← enclosed (value n) "]" n)
    | some '\x7b' => do
      Reader.expect "\x7b"
      return ofEntries (← enclosed (entry (value n)) "\x7d" n)
    | some '"' => do
      Reader.expect "\""
      return match ← text with
        | some s => .text s
        | none => .unfit
    | some 't' => do
      Reader.expect "true"
      return .bool true
    | some 'f' => do
      Reader.expect "false"
      return .bool false
    | some 'n' => do
      Reader.expect "null"
      return .null
    | _ => number

/-- How many lists and records may be inside one another. -/
def maxDepth : Nat := 127

/-- Reads the document `s`. A text has fewer values than characters. -/
def read? (s : String) : Option Value :=
  (do let v ← value (s.length + 1); skipSpace; return v.bounded maxDepth : Reader Value).run? s

end Understudy.Document.Json
