import Understudy.Document.Yaml.Scalar

/-!
# Tokens of YAML

A document as scalars and marks. Blocks are told by columns, and their ends get marks of their own:
a block ends before the first token left of it. A key has no mark in front of it in the text, so
everything that could be one is remembered, and gets its mark once a colon follows.

* `Lexer`: what the next token depends on.
* `Lexer.step`: takes one token off.
* `tokens?`: all tokens of a document.
-/

namespace Understudy.Document.Yaml

/-- What holds a document together. -/
inductive Mark
  | documentStart
  | documentEnd
  | listOpen
  | listClose
  | recordOpen
  | recordClose
  | comma
  /-- A `-` before an item of a block. -/
  | dash
  /-- What stands before a key, perhaps a `?`. -/
  | key
  /-- A `:` between a key and its value. -/
  | colon
  | blockList
  | blockRecord
  | blockEnd
deriving Repr, DecidableEq

/-- A scalar with its `Value`, or a `Mark`. -/
inductive Token
  | scalar (v : Value)
  | mark (m : Mark)

/-- Something that is a key if a `:` follows. -/
structure Candidate where
  /-- How many tokens there are before it. -/
  position : Nat
  line : Nat
  column : Nat
  /-- How many bytes there are before it on its line. -/
  offset : Nat
  /-- Whether it has to be a key, as it stands where a record has its keys. -/
  required : Bool

/-- A place between two tokens, with the `tokens` before it. -/
structure Lexer where
  cursor : Cursor
  tokens : Array Token := #[]
  /-- The columns of the open blocks, the innermost first. -/
  blocks : List Nat := []
  /-- What may be a key between the innermost brackets, or outside all. -/
  candidate : Option Candidate := none
  /-- What may be a key, as `candidate`, for each pair of brackets further out. -/
  outer : List (Option Candidate) := []
  /-- Whether a key may stand here. -/
  keyAllowed : Bool := true

namespace Lexer

/-- Whether `l` is between brackets. -/
def inFlow (l : Lexer) : Bool := !l.outer.isEmpty

/-- The first column inside the innermost of `l.blocks`. -/
def leastColumn (l : Lexer) : Nat :=
  match l.blocks with
  | [] => 0
  | column :: _ => column + 1

/-- Adds the mark `m`. -/
def put (l : Lexer) (m : Mark) : Lexer := { l with tokens := l.tokens.push (.mark m) }

/-- Adds the mark `m`, which has `length` characters. -/
def take (l : Lexer) (m : Mark) (length : Nat) : Lexer :=
  { l.put m with cursor := l.cursor.move length }

/-- Says by `allowed` whether a key may come next. -/
def allowKey (l : Lexer) (allowed : Bool) : Lexer := { l with keyAllowed := allowed }

/-! ## Blanks and comments -/

/-- Skips blanks, comments and line breaks, and tells whether a key may stand behind them. Tabs do
not indent, so where a key may stand they are no blanks. A mark for the order of bytes may start a
line. Where `inFlow` is set, no line break allows a key. -/
def skipGap (inFlow : Bool) : Bool → Bool → Cursor → List Char → Cursor × Bool
  | keys, _, c, [] => (c, keys)
  | keys, comment, c, ch :: rest =>
    if isBreak ch then skipGap inFlow (keys || !inFlow) false c.next rest
    else if comment || ch = ' ' || (ch = '\t' && (inFlow || !keys)) ||
        (ch = '\uFEFF' && c.column = 0) then
      skipGap inFlow keys comment c.next rest
    else if ch = '#' then skipGap inFlow keys true c.next rest
    else (c, keys)

/-- Takes `l` to the next token. -/
def toToken (l : Lexer) : Lexer :=
  let (cursor, keyAllowed) := skipGap l.inFlow l.keyAllowed false l.cursor l.cursor.rest
  { l with cursor, keyAllowed }

/-! ## Keys -/

/-- How many bytes a key may have, up to its colon. -/
def maxKeyLength : Nat := 1024

/-- Whether a colon at the place of `l` comes too late for the key `k`, which stays on its line. -/
def isStale (l : Lexer) (k : Candidate) : Bool :=
  k.line < l.cursor.line || k.offset + maxKeyLength < l.cursor.offset

/-- Forgets the `candidate` if it cannot be a key any more. -/
def dropStale (l : Lexer) : Option Lexer :=
  let stale (k : Option Candidate) := k.any l.isStale
  if (l.candidate :: l.outer).any fun k => stale k && k.any (·.required) then none
  else
    let fresh (k : Option Candidate) := if stale k then none else k
    some { l with candidate := fresh l.candidate, outer := l.outer.map fresh }

/-- Forgets the `candidate`, as no colon follows. -/
def dropCandidate (l : Lexer) : Option Lexer :=
  if l.candidate.any (·.required) then none else some { l with candidate := none }

/-- Remembers the next token as the `candidate` for a key. -/
def saveCandidate (l : Lexer) : Option Lexer :=
  if l.keyAllowed then do
    let l ← l.dropCandidate
    return { l with candidate := some {
      position := l.tokens.size, line := l.cursor.line, column := l.cursor.column,
      offset := l.cursor.offset,
      required := !l.inFlow && l.blocks.head? = some l.cursor.column } }
  else some l

/-! ## Blocks and brackets -/

/-- Ends the blocks in the columns from `least` on. Between brackets there are no blocks. -/
def closeBlocks (l : Lexer) (least : Nat) : Lexer :=
  if l.inFlow then l
  else
    let closed := l.blocks.takeWhile (least ≤ ·)
    { l with
      tokens := l.tokens ++ closed.map fun _ => Token.mark .blockEnd
      blocks := l.blocks.dropWhile (least ≤ ·) }

/-- Starts a block in a `column` right of the innermost one. Its mark `m` goes to a `position` among
the tokens. -/
def openBlock (l : Lexer) (m : Mark) (column position : Nat) : Lexer :=
  if !l.inFlow && l.leastColumn ≤ column then
    { l with
      tokens := l.tokens.insertIdxIfInBounds position (.mark m)
      blocks := column :: l.blocks }
  else l

/-- Starts a block with the mark `m` here, where a key has to be allowed. -/
def openBlockHere (l : Lexer) (m : Mark) : Option Lexer :=
  if l.inFlow then some l
  else if l.keyAllowed then some (l.openBlock m l.cursor.column l.tokens.size)
  else none

/-- Moves over the opening bracket `m`. -/
def openFlow (l : Lexer) (m : Mark) : Option Lexer := do
  let l ← l.saveCandidate
  return ({ l with candidate := none, outer := l.candidate :: l.outer }.allowKey true).take m 1

/-- Moves over the closing bracket `m`. -/
def closeFlow (l : Lexer) (m : Mark) : Option Lexer := do
  let l ← l.dropCandidate
  let l := match l.outer with
    | [] => l
    | k :: outer => { l with candidate := k, outer }
  return (l.allowKey false).take m 1

/-! ## Tokens -/

/-- Moves over the mark `m` that starts or ends a document. -/
def documentMark (l : Lexer) (m : Mark) : Option Lexer := do
  let l ← (l.closeBlocks 0).dropCandidate
  return (l.allowKey false).take m 3

/-- Moves over a `,`. -/
def comma (l : Lexer) : Option Lexer := do
  let l ← l.dropCandidate
  return (l.allowKey true).take .comma 1

/-- Moves over the `-` before an item. -/
def dash (l : Lexer) : Option Lexer := do
  let l ← (← l.openBlockHere .blockList).dropCandidate
  return (l.allowKey true).take .dash 1

/-- Moves over the `?` before a key. -/
def key (l : Lexer) : Option Lexer := do
  let l ← (← l.openBlockHere .blockRecord).dropCandidate
  return (l.allowKey !l.inFlow).take .key 1

/-- Moves over a `:`. The `candidate` is now a key, and may be the first of a record. -/
def colon (l : Lexer) : Option Lexer := do
  match l.candidate with
  | some k =>
    let l := { l with
      tokens := l.tokens.insertIdxIfInBounds k.position (.mark .key)
      candidate := none }
    return ((l.openBlock .blockRecord k.column k.position).allowKey false).take .colon 1
  | none =>
    let l ← l.openBlockHere .blockRecord
    return (l.allowKey !l.inFlow).take .colon 1

/-- Takes a text in quotes off `l`. -/
def quotedScalar (l : Lexer) : Option Lexer := do
  let l ← l.saveCandidate
  let (s, cursor) ← quoted.run l.cursor
  return { l with cursor, tokens := l.tokens.push (.scalar (.text s)), keyAllowed := false }

/-- Takes a word without quotes off `l`. Behind a line break a key may come again. -/
def plainScalar (l : Lexer) : Option Lexer := do
  let l ← l.saveCandidate
  let ((s, broken), cursor) ← (plain l.inFlow l.leastColumn).run l.cursor
  return { l with cursor, tokens := l.tokens.push (.scalar (.plain s)), keyAllowed := broken }

/-- Takes one token off that starts with `c`. -/
def token (l : Lexer) (c : Char) (rest : List Char) : Option Lexer :=
  if l.cursor.atStartMark then l.documentMark .documentStart
  else if l.cursor.atEndMark then l.documentMark .documentEnd
  else if c = '[' then l.openFlow .listOpen
  else if c = '\x7b' then l.openFlow .recordOpen
  else if c = ']' then l.closeFlow .listClose
  else if c = '\x7d' then l.closeFlow .recordClose
  else if c = ',' then l.comma
  else if c = '-' && endsWord rest then l.dash
  else if c = '?' && (l.inFlow || endsWord rest) then l.key
  else if c = ':' && (l.inFlow || endsWord rest) then l.colon
  else if c = '\x27' || c = '"' then l.quotedScalar
  else if startsPlain l.inFlow (c :: rest) then l.plainScalar
  else none

/-- Takes `l` on by a token. At the end all blocks are closed. -/
def step (l : Lexer) : Option Lexer := do
  let l ← l.toToken.dropStale
  let l := l.closeBlocks (l.cursor.column + 1)
  match l.cursor.rest with
  | [] => (l.closeBlocks 0).dropCandidate
  | c :: rest => l.token c rest

/-- Goes on by `step` to the end. -/
def run : Nat → Lexer → Option Lexer
  | 0, _ => none
  | n + 1, l => do
    let l ← l.step
    if l.cursor.rest.isEmpty then l.step else run n l

end Lexer

/-- The tokens of the document `cs`. A step takes at least one character off. -/
def tokens? (cs : List Char) : Option (List Token) :=
  (Lexer.run (cs.length + 1) { cursor := { rest := cs } }).map (·.tokens.toList)

end Understudy.Document.Yaml
