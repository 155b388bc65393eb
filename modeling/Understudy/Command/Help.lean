/-!
# Help on the command line

The text that a user sees who asks for it.
-/

namespace Understudy.Command

/-- What the command does and takes, with the file of options that the `environment` names. -/
def helpText (environment : Option String) : String :=
  "\n".intercalate [
    "Extract mock-ready interface IR from type-checked packages",
    "",
    "Usage: ifacemock [OPTIONS] [INTERFACE]",
    "",
    "Arguments:",
    "  [INTERFACE]  Extract only this interface",
    "",
    "Options:",
    "  -d, --data <DATA>      Loader output to read packages from (JSON, or YAML by extension) " ++
      "[default: packages.json]",
    "  -c, --config <CONFIG>  Options file [env: IFACEMOCK_CONFIG=" ++ environment.getD "" ++ "]",
    "  -o, --output <OUTPUT>  Output file for directives without one, or the output key in " ++
      "single-interface mode",
    "  -w, --write            Write IR files rather than printing to stdout",
    "  -v, --verbose          Enable verbose output",
    "      --debug            Enable debug output",
    "  -h, --help             Print help",
    "",
    "When the positional interface argument is omitted, every interface annotated",
    "with a \"go:mock [output file]\" directive is extracted and printed to stdout",
    "or, with -w, written next to its output path as <output path>.json. A directive",
    "without an output file uses -o when given, else <source>_mock.go.",
    "",
    "When an interface name is given, only that interface is extracted and the",
    "package data must hold exactly one package. -w is not accepted in that mode;",
    "the IR is written to <-o>.json when -o is given.",
    ""]

/-- The line that a user sees whose words are no arguments. -/
def usageText : String :=
  "Usage: ifacemock [OPTIONS] [INTERFACE]\n\nFor more information, try '--help'.\n"

end Understudy.Command
