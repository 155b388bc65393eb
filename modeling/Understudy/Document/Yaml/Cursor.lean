/-!
# Places in a YAML document

Lines and columns mean something in YAML, so a place knows both. Besides the line feed, the two
separators of Unicode end a line; they stay in a text as they are.
-/

namespace Understudy.Document.Yaml

/-- Whether `c` is a blank inside a line. -/
def isSpace (c : Char) : Bool := c = ' ' || c = '\t'

/-- Whether `c` ends a line. -/
def isBreak (c : Char) : Bool := c = '\n' || c = '\u2028' || c = '\u2029'

/-- Whether `c` is a blank or ends a line. -/
def isGap (c : Char) : Bool := isSpace c || isBreak c

/-- Whether a blank, a line break or the end comes next in `cs`. -/
def endsWord (cs : List Char) : Bool := cs.head?.all isGap

/-- A place in a document, and what is left from there, `rest`. -/
structure Cursor where
  rest : List Char
  line : Nat := 0
  column : Nat := 0
  /-- How many bytes there are before it on its line. -/
  offset : Nat := 0

namespace Cursor

/-- The place behind the next character of `c`. -/
def next (c : Cursor) : Cursor :=
  match c.rest with
  | [] => c
  | ch :: rest =>
    if isBreak ch then { rest, line := c.line + 1 }
    else { c with rest, column := c.column + 1, offset := c.offset + ch.utf8Size }

/-- The place so many characters behind `c`. -/
def move (c : Cursor) : Nat → Cursor
  | 0 => c
  | n + 1 => c.next.move n

/-- Whether `mark` fills the start of the line. -/
def atMark (c : Cursor) (mark : List Char) : Bool :=
  c.column = 0 && mark.isPrefixOf c.rest && endsWord (c.rest.drop mark.length)

/-- Whether a document starts at `c`. -/
def atStartMark (c : Cursor) : Bool := c.atMark ['-', '-', '-']

/-- Whether a document ends at `c`. -/
def atEndMark (c : Cursor) : Bool := c.atMark ['.', '.', '.']

/-- Whether a document starts or ends at `c`. -/
def atMarker (c : Cursor) : Bool := c.atStartMark || c.atEndMark

end Cursor

end Understudy.Document.Yaml
