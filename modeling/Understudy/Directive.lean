import Understudy.Options
import Understudy.Package
import Understudy.Text.Blank

/-!
# Directives

A comment line that starts with the marker asks for a mock of the declaration below it. The rest of
the line names the output file, relative to the source file; without it the configured file is
taken, or else the source file's name with a suffix.
-/

namespace Understudy.Directive

/-- The output file that `line` names, if it is a comment with the directive `marker`. -/
def argument? (marker line : String) : Option String :=
  if marker.toList.isPrefixOf line.toList then
    some (String.ofList (Text.trimBlank (line.toList.drop marker.toList.length)))
  else none

/-- The name of an output file made from that of its source file `source`. -/
def mockName (o : Options) (source : Path) : String :=
  source.stem?.getD "" ++ o.mockSuffix ++
    match source.extension? with
    | some ext => "." ++ ext
    | none => ""

/-- Where the mocks of the file `source` go, given the `argument` of the directive. -/
def outputPath (o : Options) (source : Path) (argument : String) : Path :=
  let dir := source.parent?.getD ⟨""⟩
  if argument ≠ "" then dir.joinClean argument
  else
    match o.defaultOutputFile.filter (· ≠ "") with
    | some file => dir.joinClean file
    | none => dir.join (mockName o source)

/-- Where the declaration `d` is directed to and the object it stands for: the first directive
counts, and the first name that has an object. -/
def target? (o : Options) (source : Path) (d : Decl) : Option (Path × ObjectId) := do
  let argument ← d.doc.findSome? (argument? o.marker)
  let object ← d.specs.findSome? (·.object)
  return (outputPath o source argument, object)

end Understudy.Directive
