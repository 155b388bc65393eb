import Understudy.Journal

/-!
# Arguments of the command line

A word with one dash is a cluster of letters, one with two dashes a long name, and any other word
names an interface. Behind `--` every word does. A setting takes a value: what follows it in its
word, with or without an equals sign, or the next word, unless that starts with a dash itself.
Nothing may be given twice.

* `Arguments.read`: the arguments that words spell out.
-/

namespace Understudy.Command

open Journal (Verbosity)

/-- What can be turned on. -/
inductive Switch
  | write
  | verbose
  | debug
deriving DecidableEq, Repr

/-- What can be given a value. -/
inductive Setting
  | data
  | config
  | output
deriving DecidableEq, Repr

/-- What an option's name stands for: a `Switch`, a `Setting`, or the request for help. -/
inductive OptionName
  | switch (s : Switch)
  | setting (s : Setting)
  | help
deriving DecidableEq, Repr

namespace OptionName

def ofLetter? : Char → Option OptionName
  | 'd' => some (setting .data)
  | 'c' => some (setting .config)
  | 'o' => some (setting .output)
  | 'w' => some (switch .write)
  | 'v' => some (switch .verbose)
  | 'h' => some help
  | _ => none

def ofWord? : String → Option OptionName
  | "data" => some (setting .data)
  | "config" => some (setting .config)
  | "output" => some (setting .output)
  | "write" => some (switch .write)
  | "verbose" => some (switch .verbose)
  | "debug" => some (switch .debug)
  | "help" => some help
  | _ => none

end OptionName

/-- Why reading ends without `Arguments`. -/
inductive Stop
  /-- Help was asked for. -/
  | help
  /-- The words are no arguments. -/
  | usage
deriving DecidableEq, Repr

/-- The `switches`, the `settings` and the `interface` given so far. -/
structure Given where
  switches : List Switch := []
  settings : List (Setting × String) := []
  interface : Option String := none
deriving DecidableEq, Repr, Inhabited

namespace Given

def turnOn (g : Given) (s : Switch) : Except Stop Given :=
  if s ∈ g.switches then .error .usage else .ok { g with switches := s :: g.switches }

/-- Whether `s` can have the `value`. A file to read from cannot have the empty path. -/
def admits (s : Setting) (value : String) : Bool :=
  s = .output || value ≠ ""

def assign (g : Given) (s : Setting) (value : String) : Except Stop Given :=
  if (g.settings.lookup s).isSome || !admits s value then .error .usage
  else .ok { g with settings := (s, value) :: g.settings }

def name (g : Given) (interface : String) : Except Stop Given :=
  if g.interface.isSome then .error .usage else .ok { g with interface := some interface }

/-- Reads a cluster of letters behind `g`. A setting takes the rest of the cluster as its value, and
waits for one if there is none. -/
def cluster (g : Given) : List Char → Except Stop (Given × Option Setting)
  | [] => .ok (g, none)
  | c :: cs =>
    match OptionName.ofLetter? c with
    | none => .error .usage
    | some .help => .error .help
    | some (.switch s) => do (← g.turnOn s).cluster cs
    | some (.setting s) =>
      match cs with
      | [] => .ok (g, some s)
      | '=' :: value => do return (← g.assign s (String.ofList value), none)
      | value => do return (← g.assign s (String.ofList value), none)

/-- Reads the long name `cs`, with a value if there is an equals sign. -/
def long (g : Given) (cs : List Char) : Except Stop (Given × Option Setting) :=
  let name := String.ofList (cs.takeWhile (· ≠ '='))
  match OptionName.ofWord? name, cs.dropWhile (· ≠ '=') with
  | some .help, [] => .error .help
  | some (.switch s), [] => do return (← g.turnOn s, none)
  | some (.setting s), [] => .ok (g, some s)
  | some (.setting s), _ :: value => do return (← g.assign s (String.ofList value), none)
  | _, _ => .error .usage

/-- Reads the word `w`. A setting without its value is left waiting. -/
def word (g : Given) (w : String) : Except Stop (Given × Option Setting) :=
  match w.toList with
  | '-' :: '-' :: cs => g.long cs
  | '-' :: c :: cs => g.cluster (c :: cs)
  | _ => do return (← g.name w, none)

end Given

/-- Tells whether `w` can be the value of the word before it. A single dash can. -/
def isValue (w : String) : Bool :=
  match w.toList with
  | '-' :: _ :: _ => false
  | _ => true

/-- Reads all words behind `g`. -/
def Given.words (g : Given) : List String → Except Stop Given
  | [] => .ok g
  | w :: rest =>
    if w = "--" then rest.foldlM Given.name g
    else
      match g.word w with
      | .error e => .error e
      | .ok (g, none) => g.words rest
      | .ok (g, some s) =>
        match rest with
        | [] => .error .usage
        | value :: rest =>
          if isValue value then
            match g.assign s value with
            | .error e => .error e
            | .ok g => g.words rest
          else .error .usage

/-- What a run is asked to do, as `read` finds it in the words. -/
structure Arguments where
  /-- The file of packages. -/
  data : Path := ⟨"packages.json"⟩
  /-- The file of `Options`. -/
  config : Option Path := none
  /-- The output file of directives that name none, or of the interface. -/
  output : Option String := none
  /-- Write files, and print nothing. -/
  write : Bool := false
  /-- How much of the journal is shown, by `Verbosity.least`. -/
  verbosity : Verbosity := .normal
  /-- The only interface to describe. -/
  interface : Option String := none
deriving DecidableEq, Repr

namespace Arguments

/-- The verbosity for `switches`: debugging shows more than being verbose. -/
def verbosityOf (switches : List Switch) : Verbosity :=
  if .debug ∈ switches then .debug else if .verbose ∈ switches then .verbose else .normal

/-- The file of options: the one `given`, else the one that the `environment` names. -/
def configOf (given environment : Option String) : Except Stop (Option Path) :=
  match given, environment with
  | some file, _ => .ok (some ⟨file⟩)
  | none, some "" => .error .usage
  | none, some file => .ok (some ⟨file⟩)
  | none, none => .ok none

/-- The arguments that `words` spell out, with the file of options that the `environment` names. -/
def read (words : List String) (environment : Option String) : Except Stop Arguments := do
  let g ← Given.words {} words
  let config ← configOf (g.settings.lookup .config) environment
  return {
    data := ⟨(g.settings.lookup .data).getD "packages.json"⟩
    config
    output := g.settings.lookup .output
    write := .write ∈ g.switches
    verbosity := verbosityOf g.switches
    interface := g.interface }

end Arguments

end Understudy.Command
