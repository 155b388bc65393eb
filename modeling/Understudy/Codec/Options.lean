import Understudy.Codec.Types
import Understudy.Document.Toml
import Understudy.Options

/-!
# Options as document values

Every option may be left out. Files of options are written in TOML.
-/

namespace Understudy.Codec

open Document (Value)
open Decoder

def decodeOptions : Decoder Options := fun v => do
  let [marker, file, suffix, support] ←
    fields ["marker", "default_output_file", "mock_suffix", "support_imports"] v | none
  let default : Options := {}
  return {
    marker := ← defaulted default.marker text marker
    defaultOutputFile := ← defaulted default.defaultOutputFile (optional text) file
    mockSuffix := ← defaulted default.mockSuffix text suffix
    supportImports := ← defaulted default.supportImports (list text) support }

/-- Reads the text `s` of a file of options. -/
def readOptions? (s : String) : Option Options :=
  (Document.Toml.read? s).bind decodeOptions

def encodeOptions (o : Options) : Value :=
  .record [("marker", .text o.marker),
    ("default_output_file", encodeOption .text o.defaultOutputFile),
    ("mock_suffix", .text o.mockSuffix), ("support_imports", encodeList .text o.supportImports)]

end Understudy.Codec
