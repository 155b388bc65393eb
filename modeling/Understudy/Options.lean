/-!
# Options

What a project can set: how a directive is marked, where mocks are written, and which packages every
mock imports.
-/

namespace Understudy

/-- Settings of a run. -/
structure Options where
  /-- The start of a comment line that asks for a mock, as in `//go:mock`. -/
  marker : String := "//go:mock"
  /-- The output file of directives that name none, relative to the source file. -/
  defaultOutputFile : Option String := none
  /-- What the name of an output file adds to that of its source file, as in `x_mock.go` for
  `x.go`. -/
  mockSuffix : String := "_mock"
  /-- Paths that every mock imports under their plain names. -/
  supportImports : List String := ["sync/atomic", "testing"]
deriving DecidableEq, Repr, Inhabited

namespace Options

def isSupportImport (o : Options) (path : String) : Bool :=
  o.supportImports.contains path

def withDefaultOutputFile (o : Options) (file : String) : Options :=
  { o with defaultOutputFile := some file }

end Options

end Understudy
