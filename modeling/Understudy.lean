import Understudy.Builder
import Understudy.Codec.Decoder
import Understudy.Codec.Mock
import Understudy.Codec.Options
import Understudy.Codec.Package
import Understudy.Codec.Types
import Understudy.Command.Arguments
import Understudy.Command.Error
import Understudy.Command.Files
import Understudy.Command.Help
import Understudy.Command.Load
import Understudy.Command.Run
import Understudy.Command.Storage
import Understudy.Command.Target
import Understudy.Directive
import Understudy.Directive.Scan
import Understudy.Document.Double
import Understudy.Document.Json
import Understudy.Document.Json.Writer
import Understudy.Document.Reader
import Understudy.Document.Toml
import Understudy.Document.Toml.Scalar
import Understudy.Document.Toml.Table
import Understudy.Document.Value
import Understudy.Document.Word
import Understudy.Document.Yaml
import Understudy.Document.Yaml.Cursor
import Understudy.Document.Yaml.Scalar
import Understudy.Document.Yaml.Token
import Understudy.Extract.Error
import Understudy.Extract.File
import Understudy.Extract.Interface
import Understudy.Extract.Journal
import Understudy.Graph
import Understudy.Graph.Embedding
import Understudy.Graph.Validity
import Understudy.Import
import Understudy.Import.Aggregate
import Understudy.Import.Scope
import Understudy.Journal
import Understudy.Main
import Understudy.Mock
import Understudy.Name
import Understudy.Options
import Understudy.Package
import Understudy.Path
import Understudy.Path.Table
import Understudy.Position
import Understudy.Proofs.Aggregation
import Understudy.Proofs.Agreement
import Understudy.Proofs.BreadthFirst
import Understudy.Proofs.Cleaning
import Understudy.Proofs.ConstraintRuns
import Understudy.Proofs.ContextParams
import Understudy.Proofs.Crowding
import Understudy.Proofs.Decoding
import Understudy.Proofs.Depths
import Understudy.Proofs.DocumentData
import Understudy.Proofs.Endings
import Understudy.Proofs.Explosion
import Understudy.Proofs.Extraction
import Understudy.Proofs.Failures
import Understudy.Proofs.FreeNames
import Understudy.Proofs.Grouping
import Understudy.Proofs.Growth
import Understudy.Proofs.ImportSets
import Understudy.Proofs.Independence
import Understudy.Proofs.JsonText
import Understudy.Proofs.KeptNames
import Understudy.Proofs.LeastNames
import Understudy.Proofs.Levels
import Understudy.Proofs.LexicalJoins
import Understudy.Proofs.Lookups
import Understudy.Proofs.MethodOrder
import Understudy.Proofs.Methods
import Understudy.Proofs.MissingObjects
import Understudy.Proofs.NameChains
import Understudy.Proofs.Numbering
import Understudy.Proofs.Outcome
import Understudy.Proofs.OutputPaths
import Understudy.Proofs.ParamNames
import Understudy.Proofs.Parametricity
import Understudy.Proofs.PathTables
import Understudy.Proofs.Prefixes
import Understudy.Proofs.Printed
import Understudy.Proofs.Reachability
import Understudy.Proofs.Renaming
import Understudy.Proofs.Renumbering
import Understudy.Proofs.ResolvedTypes
import Understudy.Proofs.RoundTrip
import Understudy.Proofs.Scanning
import Understudy.Proofs.Shape
import Understudy.Proofs.SignatureTexts
import Understudy.Proofs.SingleInterface
import Understudy.Proofs.Successors
import Understudy.Proofs.SupportImports
import Understudy.Proofs.UsedImports
import Understudy.Proofs.WrittenOnce
import Understudy.Sample
import Understudy.Text.Blank
import Understudy.Text.Lines
import Understudy.Text.Printable
import Understudy.Text.Quoted
import Understudy.TypeText
import Understudy.TypeText.Writer
