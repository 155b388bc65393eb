import Understudy.Path
import Understudy.Text.Lines
import Understudy.Text.Quoted

/-!
# The journal of a run

What happens during a run, as data, and the line that reports it. How much is shown depends on the
verbosity of the run.
-/

namespace Understudy.Journal

/-- How much a reader has to care about an `Event`. -/
inductive Level
  | trace
  | debug
  | info
deriving DecidableEq, Repr

namespace Level

def text : Level → String
  | trace => "TRACE"
  | debug => "DEBUG"
  | info => "INFO"

def rank : Level → Nat
  | trace => 0
  | debug => 1
  | info => 2

end Level

/-- How much of the journal is shown. -/
inductive Verbosity
  | normal
  | verbose
  | debug
deriving DecidableEq, Repr

/-- The least `Level` that is shown. -/
def Verbosity.least : Verbosity → Level
  | normal => .info
  | verbose => .debug
  | debug => .trace

/-- Something that happened. -/
inductive Event
  /-- `count` packages were read from `source`. -/
  | loaded (count : Nat) (source : Path)
  /-- The group of the output file `path` is about to be put together. -/
  | assembling (path : Path) (objects : Nat)
  /-- The import of `path` got the alias `name`, because its own was taken. -/
  | renamed (path : String) (name : String)
  /-- The package at `path` is referred to, which the file does not import. -/
  | synthesized (path : String)
  /-- The prefix `answer` was chosen for the package at `path`. -/
  | qualified (path : String) (answer : String)
  /-- The interfaces that an interface embeds were collected, `count` of them. -/
  | exploded (count : Nat)
  /-- The interface `interface` was described. -/
  | extracted (interface : String) (methods : Nat)
  /-- A mock file of `package` was described. -/
  | assembled (package : String) (interfaces : Nat) (imports : Nat)
  /-- All mock `files` were described. -/
  | generated (files : Nat)
  /-- The file `target` was written. -/
  | wrote (target : Path)
deriving DecidableEq, Repr

namespace Event

def level : Event → Level
  | loaded _ _ | assembling _ _ | renamed _ _ | extracted _ _ | assembled _ _ _ => .debug
  | synthesized _ | qualified _ _ | exploded _ => .trace
  | generated _ | wrote _ => .info

/-- The part of the program that reports an `Event`. -/
def reporter : Event → String
  | loaded _ _ | generated _ | wrote _ => "ifacemock"
  | assembling _ _ | assembled _ _ _ => "ifacemock_extract::file"
  | renamed _ _ => "ifacemock_extract::imports"
  | synthesized _ | qualified _ _ => "ifacemock_extract::qualifier"
  | exploded _ => "ifacemock_extract::explode"
  | extracted _ _ => "ifacemock_extract::interface"

def text : Event → String
  | loaded count source =>
    "Loaded " ++ toString count ++ " package(s) from " ++ Text.quoted source.text
  | assembling path objects =>
    "assembling group path=" ++ path.text ++ " objects=" ++ toString objects
  | renamed path name =>
    "renamed conflicting import path=" ++ path ++ " alias=" ++ name
  | synthesized path => "synthesizing import path=" ++ path
  | qualified path answer => "qualified path=" ++ path ++ " prefix=" ++ answer
  | exploded count => "exploded interface count=" ++ toString count
  | extracted interface methods =>
    "extracted interface interface=" ++ interface ++ " methods=" ++ toString methods
  | assembled package interfaces imports =>
    "assembled file package=" ++ package ++ " interfaces=" ++ toString interfaces ++
      " imports=" ++ toString imports
  | generated files => "Generated " ++ toString files ++ " mock file(s)"
  | wrote target => "Wrote " ++ Text.quoted target.text

/-- The line that reports `e`, if it is shown. When debugging it names the `reporter`. -/
def line? (v : Verbosity) (e : Event) : Option String :=
  if e.level.rank < v.least.rank then none
  else if v = .debug then some (e.level.text ++ " " ++ e.reporter ++ ": " ++ e.text)
  else some (e.level.text ++ " " ++ e.text)

end Event

/-- The lines of `events` that are shown. An event with line breaks in its data takes several. -/
def lines (v : Verbosity) (events : List Event) : List String :=
  (events.filterMap (Event.line? v)).flatMap Text.lines

end Understudy.Journal
