import Understudy.Document.Yaml.Token

/-!
# Reading YAML

The part of YAML that data files use: lists and records as indented blocks or in brackets, words
without quotes, texts in quotes, comments, and one document in a file. Where something is missing,
it is an empty word. Words are not decided yet, lists never stand for records, and keys are values.
-/

namespace Understudy.Document.Yaml

/-- Takes something off the front of a list of `Token`s. -/
abbrev Parse := StateT (List Token) Option

/-- The next `Token`, left in place. -/
def peek? : Parse (Option Token) := fun ts => some (ts.head?, ts)

/-- Moves over the next `Token`. -/
def skip : Parse Unit := modify List.tail

/-- Whether one of the marks `ms` comes next. -/
def nextIsIn (ms : List Mark) : Parse Bool := do
  match ← peek? with
  | some (.mark m) => return m ∈ ms
  | _ => return false

/-- Moves over the mark `m` if it comes next, and tells whether it did. -/
def accept (m : Mark) : Parse Bool := do
  if ← nextIsIn [m] then
    skip
    return true
  else return false

/-- What is missing, an empty `plain` word. -/
def empty : Value := .plain ""

/-- What `value` reads, which is missing before one of the marks `stops`. -/
def unlessNext (stops : List Mark) (value : Parse Value) : Parse Value := do
  if ← nextIsIn stops then return empty else value

/-- What `value` reads for a key, which may be missing before `stops`, with or without its colon. -/
def valueOfKey (stops : List Mark) (value : Parse Value) : Parse Value := do
  if ← accept .colon then unlessNext stops value else return empty

/-- The only key of a record without braces, read by `value`. Where it is missing, the mark that
shows it is passed. -/
def soleKey (value : Parse Value) : Parse Value := do
  if ← nextIsIn [.colon, .comma, .listClose] then
    skip
    return empty
  else value

mutual

/-- A value. Blocks are found outside brackets only, where `inBlock` is set, and the items of a list
in the column of a key only behind that key, where `inEntry` is set. -/
def node (inBlock inEntry : Bool) : Nat → Parse Value
  | 0 => failure
  | n + 1 => do
    match ← peek? with
    | some (.scalar v) => do
      skip
      return v
    | some (.mark .listOpen) => do
      skip
      return .sequence (← flowItems true n)
    | some (.mark .recordOpen) => do
      skip
      return .mapping (← flowEntries true n)
    | some (.mark .blockList) => do
      if !inBlock then failure
      skip
      return .sequence (← blockItems n)
    | some (.mark .blockRecord) => do
      if !inBlock then failure
      skip
      return .mapping (← blockEntries n)
    | some (.mark .dash) => do
      if !inEntry then failure
      return .sequence (← entryItems n)
    | _ => failure

/-- The items of a block, each behind its `dash`, up to the end of the block. -/
def blockItems : Nat → Parse (List Value)
  | 0 => failure
  | n + 1 => do
    if ← accept .dash then
      let v ← unlessNext [.dash, .blockEnd] (node true false n)
      return v :: (← blockItems n)
    else if ← accept .blockEnd then return []
    else failure

/-- The items of a list in the column of its key, each behind its `dash`. It is no block of its
own. -/
def entryItems : Nat → Parse (List Value)
  | 0 => failure
  | n + 1 => do
    if ← accept .dash then
      let v ← unlessNext [.dash, .key, .colon, .blockEnd] (node true false n)
      return v :: (← entryItems n)
    else return []

/-- The entries of a block, each behind its `key`, up to the end of the block. -/
def blockEntries : Nat → Parse (List (Value × Value))
  | 0 => failure
  | n + 1 => do
    if ← accept .key then
      let key ← unlessNext [.key, .colon, .blockEnd] (node true true n)
      let v ← valueOfKey [.key, .colon, .blockEnd] (node true true n)
      return (key, v) :: (← blockEntries n)
    else if ← accept .blockEnd then return []
    else failure

/-- The items of a list in brackets, from the `first` on. A comma may come last, and a key makes a
record of one entry. -/
def flowItems (first : Bool) : Nat → Parse (List Value)
  | 0 => failure
  | n + 1 => do
    if ← accept .listClose then return []
    if !first then
      if !(← accept .comma) then failure
    if ← accept .key then
      let key ← soleKey (node false false n)
      let v ← valueOfKey [.comma, .listClose] (node false false n)
      return .mapping [(key, v)] :: (← flowItems false n)
    else if ← accept .listClose then return []
    else
      let v ← node false false n
      return v :: (← flowItems false n)

/-- The entries of a record in braces, from the `first` on. A comma may come last, and a key may
stand without a value. -/
def flowEntries (first : Bool) : Nat → Parse (List (Value × Value))
  | 0 => failure
  | n + 1 => do
    if ← accept .recordClose then return []
    if !first then
      if !(← accept .comma) then failure
    if ← accept .key then
      let key ← unlessNext [.colon, .comma, .recordClose] (node false false n)
      let v ← valueOfKey [.comma, .recordClose] (node false false n)
      return (key, v) :: (← flowEntries false n)
    else if ← accept .recordClose then return []
    else
      let key ← node false false n
      return (key, empty) :: (← flowEntries false n)

end

/-! ## Documents -/

/-- Whether no document or no more of one comes next. -/
def atDocumentEnd : Parse Bool := do
  if (← peek?).isNone then return true
  nextIsIn [.documentStart, .documentEnd]

/-- Moves over all marks `documentEnd`. -/
def skipEnds : Parse Unit :=
  modify (·.dropWhile fun | .mark .documentEnd => true | _ => false)

/-- The value of the only document, behind the mark that may start it, by at most `n` calls. -/
def document (n : Nat) : Parse Value := do
  if (← peek?).isNone then return empty
  let missing ← if ← accept .documentStart then atDocumentEnd else pure false
  let v ← if missing then pure empty else node true false n
  skipEnds
  if (← peek?).isSome then failure
  return v

/-- Line breaks of every kind that is no text as one character. -/
def normalizeBreaks : List Char → List Char
  | [] => []
  | '\r' :: '\n' :: rest => '\n' :: normalizeBreaks rest
  | c :: rest => (if c = '\r' || c = '\u0085' then '\n' else c) :: normalizeBreaks rest

/-- Whether `c` may stand in a document. -/
def isAllowed (c : Char) : Bool :=
  let n := c.toNat
  n = 0x09 || n = 0x0a || n = 0x0d || (0x20 ≤ n && n ≤ 0x7e) || n = 0x85 ||
    (0xa0 ≤ n && n ≤ 0xfffd) || 0x10000 ≤ n

/-- How many lists and records may be inside one another. -/
def maxDepth : Nat := 128

/-- Reads the document `s`. There are at most four calls for each token. -/
def read? (s : String) : Option Value := do
  if !s.toList.all isAllowed then none
  let ts ← tokens? (normalizeBreaks s.toList)
  let (v, _) ← (document (4 * ts.length + 4)).run ts
  return v.bounded maxDepth

end Understudy.Document.Yaml
