import Understudy.Document.Toml.Scalar
import Understudy.Document.Reader
import Understudy.Document.Toml.Table

/-!
# Reading TOML

Documents of TOML 1.0: lines with a key and its value, or with the header of a table. A mark for the
order of bytes may come first.
-/

namespace Understudy.Document.Toml

open Reader

/-! ## Blanks, comments and line ends -/

def isSpace (c : Char) : Bool := c = ' ' || c = '\t'

def skipSpace : Reader Unit := do
  let _ ← takeWhile isSpace

/-- Whether `c` may stand for itself: the tab and everything but controls. -/
def isGraphic (c : Char) : Bool := c = '\t' || (0x20 ≤ c.toNat && c.toNat ≠ 0x7f)

def skipComment : Reader Unit := do
  if ← accept "#" then
    let _ ← takeWhile isGraphic

/-- Takes a line end off, if one comes next. -/
def newline : Reader Bool := do
  if ← accept "\n" then return true
  accept "\r\n"

/-- The end of a line, behind blanks and a comment from `#` on. -/
def endLine : Reader Unit := do
  skipSpace
  skipComment
  if !(← newline) then atEnd

/-- Skips blanks, comments and line ends inside a list, as often as `newline` takes one off. -/
def skipLines : Nat → Reader Unit
  | 0 => failure
  | n + 1 => do
    skipSpace
    skipComment
    if ← newline then skipLines n

/-! ## Texts -/

/-- The character with the number `n`, unless that is half a pair or too large. -/
def scalar? (n : Nat) : Option Char :=
  if n.isValidChar then some (Char.ofNat n) else none

/-- As many hexadecimal digits as `count`. -/
def hexDigits (count : Nat) : Reader Nat := fun cs =>
  let ds := cs.take count
  if ds.length = count then (Word.digits? 16 ds).map fun n => (n, cs.drop count) else none

/-- What follows a backslash. -/
def escaped : Reader Char := do
  match ← next with
  | 'b' => return '\x08'
  | 't' => return '\t'
  | 'n' => return '\n'
  | 'f' => return '\x0c'
  | 'r' => return '\r'
  | '"' => return '"'
  | '\\' => return '\\'
  | 'u' => scalar? (← hexDigits 4)
  | 'U' => scalar? (← hexDigits 8)
  | _ => failure

/-- The rest of a text of one line in double quotes. -/
def basicBody : Nat → Reader (List Char)
  | 0 => failure
  | n + 1 => do
    match ← next with
    | '"' => return []
    | '\\' => return (← escaped) :: (← basicBody n)
    | c => if isGraphic c then return c :: (← basicBody n) else failure

/-- The rest of a text of one line in single quotes. -/
def literalBody : Reader (List Char) := do
  let cs ← takeWhile fun c => isGraphic c && c ≠ '\x27'
  expect "'"
  return cs

/-- A run of `quote` in a text of several lines. Three end the text, and up to two before them
belong to it. Gives the quotes of the text and whether it ends. -/
def quoteRun (quote : Char) : Reader (List Char × Bool) := do
  let run ← takeWhile (· = quote)
  if run.length < 3 then return (run, false)
  if run.length ≤ 5 then return (run.drop 3, true)
  failure

/-- Skips blanks and line ends, as often as `newline` takes one off. -/
def skipBreaks : Nat → Reader Unit
  | 0 => failure
  | n + 1 => do
    skipSpace
    if ← newline then skipBreaks n

/-- Skips blanks and line ends behind a backslash at the end of a line, by at most `n` steps. -/
def continueLine (n : Nat) : Reader Unit := do
  skipSpace
  if !(← newline) then failure
  skipBreaks n

/-- A line end inside a text. -/
def innerNewline : Reader (List Char) := do
  if ← newline then return ['\n'] else failure

/-- The rest of a text of several lines in double quotes, up to the `quoteRun` that ends it. -/
def longBasicBody : Nat → Reader (List Char)
  | 0 => failure
  | n + 1 => do
    match ← peek? with
    | some '"' => do
      let (quotes, ends) ← quoteRun '"'
      if ends then return quotes else return quotes ++ (← longBasicBody n)
    | some '\\' => do
      expect "\\"
      match ← peek? with
      | some ' ' | some '\t' | some '\n' | some '\r' => do
        continueLine (n + 1)
        longBasicBody n
      | _ => return (← escaped) :: (← longBasicBody n)
    | some '\n' | some '\r' => return (← innerNewline) ++ (← longBasicBody n)
    | some c => do
      let _ ← next
      if isGraphic c then return c :: (← longBasicBody n) else failure
    | none => failure

/-- The rest of a text of several lines in single quotes, up to the `quoteRun` that ends it. -/
def longLiteralBody : Nat → Reader (List Char)
  | 0 => failure
  | n + 1 => do
    match ← peek? with
    | some '\x27' => do
      let (quotes, ends) ← quoteRun '\x27'
      if ends then return quotes else return quotes ++ (← longLiteralBody n)
    | some '\n' | some '\r' => return (← innerNewline) ++ (← longLiteralBody n)
    | some c => do
      let _ ← next
      if isGraphic c then return c :: (← longLiteralBody n) else failure
    | none => failure

/-- A text of any of the four kinds, of which `n` bounds the characters. A line end behind the
opening quotes does not count. -/
def quotedText (n : Nat) : Reader String := do
  if ← accept "\"\"\"" then
    let _ ← newline
    return String.ofList (← longBasicBody n)
  else if ← accept "'''" then
    let _ ← newline
    return String.ofList (← longLiteralBody n)
  else if ← accept "\"" then return String.ofList (← basicBody n)
  else
    expect "'"
    return String.ofList (← literalBody)

/-! ## Keys -/

def isBare (c : Char) : Bool := c.isAlphanum || c = '_' || c = '-'

def simpleKey (n : Nat) : Reader String := do
  if ← accept "\"" then return String.ofList (← basicBody n)
  if ← accept "'" then return String.ofList (← literalBody)
  let cs ← takeWhile isBare
  if cs.isEmpty then failure
  return String.ofList cs

/-- Keys with a `.` between them. The last one is given apart. -/
def dottedParts : Nat → Reader (List String × String)
  | 0 => failure
  | n + 1 => do
    skipSpace
    let key ← simpleKey (n + 1)
    skipSpace
    if ← accept "." then
      let (path, last) ← dottedParts n
      return (key :: path, last)
    else return ([], key)

/-- How many keys may have dots between them, and how many lists and tables may be inside one
another. -/
def maxDepth : Nat := 79

/-- Keys with dots between them, at most as many as `maxDepth`. -/
def dottedKey (n : Nat) : Reader (List String × String) := do
  let (path, last) ← dottedParts n
  if maxDepth < path.length + 1 then failure
  return (path, last)

/-! ## Values -/

/-- Whether `c` can be in a number, a date or a truth value. -/
def isWord (c : Char) : Bool :=
  c.isAlphanum || c = '_' || c = '+' || c = '-' || c = '.' || c = ':'

/-- A value without quotes, as `word?` has it. A date and a time may have a blank between them. -/
def word : Reader Value := do
  let cs ← takeWhile isWord
  let tail ← rest
  match tail with
  | ' ' :: more =>
    let time := more.takeWhile isWord
    if isDate cs && isOffsetTime time then
      set (more.dropWhile isWord)
      return .number (String.ofList (cs ++ ' ' :: time))
    else word? cs
  | _ => word? cs

/-- Items of a list, each read by `value`, behind its opening bracket. A comma may come last. -/
def items (value : Reader Value) : Nat → Reader (List Value)
  | 0 => failure
  | n + 1 => do
    skipLines (n + 1)
    if ← accept "]" then return []
    let v ← value
    skipLines (n + 1)
    if ← accept "]" then return [v]
    expect ","
    return v :: (← items value n)

/-- A key and what is read by `value` for it. -/
def assignment (value : Reader Value) (n : Nat) : Reader (List String × String × Value) := do
  let (path, key) ← dottedKey n
  expect "="
  skipSpace
  return (path, key, ← value)

/-- Entries of a table in braces, each read by `value`, with commas between them only. -/
def inlineEntries (value : Reader Value) : Nat → Table → Reader Table
  | 0, _ => failure
  | n + 1, t => do
    let (path, key, v) ← assignment value (n + 1)
    let t ← t.assign path key v
    skipSpace
    if ← accept "\x7d" then return t
    expect ","
    inlineEntries value n t

/-- A text, of which `n` bounds the characters, or a word. -/
def simpleValue (n : Nat) : Reader Value := do
  match ← peek? with
  | some '"' | some '\x27' => return .text (← quotedText n)
  | _ => word

/-- A value with at most so many lists and tables inside one another. `n` bounds the characters. -/
def value (n : Nat) : Nat → Reader Value
  | 0 => simpleValue n
  | levels + 1 => do
    match ← peek? with
    | some '[' => do
      expect "["
      return .list (← items (value n levels) n)
    | some '\x7b' => do
      expect "\x7b"
      skipSpace
      if ← accept "\x7d" then return .record []
      return (← inlineEntries (value n levels) n {}).toValue
    | _ => simpleValue n

/-! ## Documents -/

/-- A line of a document. `assign` gives a key its value, and the headers open a table. -/
inductive Line
  | blank
  | assign (path : List String) (key : String) (v : Value)
  | header (path : List String) (key : String)
  | itemHeader (path : List String) (key : String)

def line (n : Nat) : Reader Line := do
  skipSpace
  let l ← match ← peek? with
    | none | some '#' | some '\n' | some '\r' => pure Line.blank
    | some '[' => do
      expect "["
      if ← accept "[" then
        let (path, key) ← dottedKey n
        expect "]]"
        pure (.itemHeader path key)
      else
        let (path, key) ← dottedKey n
        expect "]"
        pure (.header path key)
    | some _ => do
      let (path, key, v) ← assignment (value n maxDepth) n
      pure (.assign path key v)
  endLine
  return l

/-- All lines up to the end, of which `n` bounds the characters. -/
def lines (n : Nat) : Nat → Reader (List Line)
  | 0 => failure
  | k + 1 => do
    if (← rest).isEmpty then return []
    return (← line n) :: (← lines n k)

/-- The `root` table and the path `current` of the table that keys go to. -/
structure Draft where
  root : Table := {}
  current : List String := []

/-- Adds what a line says to `d`. -/
def Draft.add (d : Draft) : Line → Option Draft
  | .blank => some d
  | .assign path key v => do
    return { d with root := ← Table.changeAt false (Table.assign path key v) d.current d.root }
  | .header path key => do
    return { root := ← Table.openTable path key d.root, current := path ++ [key] }
  | .itemHeader path key => do
    return { root := ← Table.openItem path key d.root, current := path ++ [key] }

/-- Reads the document `s`. -/
def read? (s : String) : Option Value := do
  let cs := match s.toList with
    | '\uFEFF' :: cs => cs
    | cs => cs
  let n := cs.length + 1
  let (ls, _) ← (lines n n).run cs
  let d ← ls.foldlM Draft.add {}
  return d.root.toValue

end Understudy.Document.Toml
