import Understudy.Document.Word
import Understudy.Document.Yaml.Cursor

/-!
# Scalars in YAML

Words without quotes, and texts in single or double quotes. They may run over several lines: a line
break between two words of them is a blank, and of several line breaks the first does not count.
-/

namespace Understudy.Document.Yaml

/-- Takes something off at a `Cursor`. -/
abbrev Scan := StateT Cursor Option

/-! ## Gaps -/

/-- What the blanks and line breaks `gap` inside a scalar stand for. Blanks around a line break do
not count. -/
def folded (gap : List Char) : List Char :=
  match gap.filter isBreak with
  | [] => gap
  | ['\n'] => [' ']
  | '\n' :: breaks => breaks
  | breaks => breaks

/-- Whether a tab stands left of the column `least`, at the start of a line. -/
def tabIndents (least : Nat) : Nat → List Char → Bool
  | _, [] => false
  | column, c :: cs =>
    if isBreak c then tabIndents least 0 cs
    else (c = '\t' && column < least) || tabIndents least (column + 1) cs

/-- Takes off blanks and line breaks, the characters with `isGap`. -/
def gap : Scan (List Char) := do
  let c ← get
  let cs := c.rest.takeWhile isGap
  set (c.move cs.length)
  return cs

/-! ## Words without quotes -/

/-- Whether `c` is a bracket or separates things between brackets. -/
def isFlowMark (c : Char) : Bool :=
  c = ',' || c = '[' || c = ']' || c = '\x7b' || c = '\x7d'

/-- Whether a word without quotes can start here, between brackets where `inFlow` is set. -/
def startsPlain (inFlow : Bool) : List Char → Bool
  | [] => false
  | c :: rest =>
    if c = '-' then !rest.head?.any isSpace
    else if c = '?' || c = ':' then !inFlow && !endsWord rest
    else
      !isGap c && !isFlowMark c &&
        c ∉ ['#', '&', '*', '!', '|', '>', '\x27', '"', '%', '@', '\x60']

/-- The part of a word up to a blank, a line break or something that ends the word, also a bracket
where `inFlow` is set. -/
def plainRun (inFlow : Bool) : List Char → Option (List Char)
  | [] => some []
  | c :: rest =>
    if isGap c then some []
    else if c = ':' && inFlow && rest.head?.any (fun d => d = '?' || isFlowMark d) then none
    else if c = ':' && endsWord rest then some []
    else if inFlow && isFlowMark c then some []
    else (plainRun inFlow rest).map (c :: ·)

/-- The rest of a word that may continue behind blanks and line breaks, and whether a line break was
passed behind it. Outside brackets it has to stay right of `least`, and nowhere may a tab lead
there. -/
def plainTail (inFlow : Bool) (least : Nat) : Nat → Scan (List Char × Bool)
  | 0 => failure
  | n + 1 => do
    let blanks ← gap
    if tabIndents least 0 (blanks.dropWhile isSpace) then failure
    let c ← get
    let ends := blanks.isEmpty || (!inFlow && c.column < least) || c.atMarker ||
      c.rest.head? = some '#'
    let run ← if ends then pure [] else plainRun inFlow c.rest
    if run.isEmpty then return ([], blanks.any isBreak)
    set (c.move run.length)
    let (tail, broken) ← plainTail inFlow least n
    return (folded blanks ++ run ++ tail, broken)

/-- A word without quotes, between brackets where `inFlow` is set, and whether a line break was
passed behind it. -/
def plain (inFlow : Bool) (least : Nat) : Scan (String × Bool) := do
  let c ← get
  let run ← plainRun inFlow c.rest
  set (c.move run.length)
  let (tail, broken) ← plainTail inFlow least (c.rest.length + 1)
  return (String.ofList (run ++ tail), broken)

/-! ## Texts in quotes -/

/-- The character that `digits`, which have to be `count` hexadecimal ones, name. -/
def hexChar? (digits : List Char) (count : Nat) : Option Char := do
  if digits.length ≠ count then none
  let n ← Word.digits? 16 digits
  if n.isValidChar then some (Char.ofNat n) else none

/-- What a backslash and the characters behind it stand for, and how many these are. -/
def escape? : List Char → Option (Char × Nat)
  | [] => none
  | c :: rest =>
    match c with
    | '0' => some ('\x00', 1)
    | 'a' => some ('\x07', 1)
    | 'b' => some ('\x08', 1)
    | 't' | '\t' => some ('\t', 1)
    | 'n' => some ('\n', 1)
    | 'v' => some ('\x0b', 1)
    | 'f' => some ('\x0c', 1)
    | 'r' => some ('\r', 1)
    | 'e' => some ('\x1b', 1)
    | ' ' => some (' ', 1)
    | '"' => some ('"', 1)
    | '/' => some ('/', 1)
    | '\\' => some ('\\', 1)
    | 'N' => some ('\u0085', 1)
    | '_' => some ('\u00a0', 1)
    | 'L' => some ('\u2028', 1)
    | 'P' => some ('\u2029', 1)
    | 'x' => (hexChar? (rest.take 2) 2).map (·, 3)
    | 'u' => (hexChar? (rest.take 4) 4).map (·, 5)
    | 'U' => (hexChar? (rest.take 8) 8).map (·, 9)
    | _ => none

/-- The rest of a text behind its opening `quote`. A backslash at the end of a line joins it with
the next one. -/
def quotedBody (quote : Char) : Nat → Scan (List Char)
  | 0 => failure
  | n + 1 => do
    let c ← get
    if c.atMarker then failure
    match c.rest with
    | [] => failure
    | ch :: rest =>
      if isGap ch then
        let blanks ← gap
        return folded blanks ++ (← quotedBody quote n)
      else if ch = quote then
        if quote = '\x27' && rest.head? = some '\x27' then
          set (c.move 2)
          return '\x27' :: (← quotedBody quote n)
        else
          set (c.move 1)
          return []
      else if ch = '\\' && quote = '"' then
        if rest.head?.any isBreak then
          set (c.move 2)
          let blanks ← gap
          return blanks.filter isBreak ++ (← quotedBody quote n)
        else
          let (e, count) ← escape? rest
          set (c.move (1 + count))
          return e :: (← quotedBody quote n)
      else
        set (c.move 1)
        return ch :: (← quotedBody quote n)

/-- A text in quotes of either kind, by `quotedBody`. -/
def quoted : Scan String := do
  let c ← get
  match c.rest with
  | [] => failure
  | quote :: _ =>
    set (c.move 1)
    return String.ofList (← quotedBody quote (c.rest.length + 1))

end Understudy.Document.Yaml
