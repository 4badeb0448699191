import StructModel.Text.Identifier
import StructModel.Text.Uppercase
import StructModel.Text.Quoted
import StructModel.Grammar.Reading
import StructModel.Go.Rules
import StructModel.Go.Literal
import StructModel.Go.Scan
import StructModel.Go.Parse
import StructModel.Go.File
import StructModel.Element
import StructModel.Tag.Pairs
import StructModel.Extract.Declarations
import StructModel.Decimal.Double
import StructModel.Json.Reader
import StructModel.Json.Writer
import StructModel.Json.Models
import StructModel.Json.Records
import StructModel.Toml.Options
import StructModel.Files.Load
import StructModel.Proofs.Extract.Uniform
import StructModel.Proofs.Element.Canonical
import StructModel.Proofs.Element.Deferred
import StructModel.Proofs.Extract.Runs
import StructModel.Proofs.Extract.Placing
import StructModel.Proofs.Extract.Canonical
import StructModel.Proofs.Extract.Declarations
import StructModel.Proofs.Text.Quoted
import StructModel.Proofs.Extract.Lockstep
import StructModel.Proofs.Extract.Dropped
import StructModel.Proofs.Extract.Policies
import StructModel.Proofs.Extract.Accounting
import StructModel.Proofs.Extract.Nesting
import StructModel.Proofs.Go.Relocation
import StructModel.Proofs.Extract.Relocation
import StructModel.Proofs.Extract.Outcomes
import StructModel.Proofs.Extract.Entries
import StructModel.Proofs.Extract.Parentheses
import StructModel.Proofs.Extract.Selection
import StructModel.Proofs.Extract.Exported
import StructModel.Proofs.Extract.Members
import StructModel.Proofs.Extract.Removal
import StructModel.Proofs.Tag.Literal
import StructModel.Proofs.Tag.Pairs
import StructModel.Proofs.Tag.Written
import StructModel.Proofs.Extract.Written
import StructModel.Proofs.Json.Text
import StructModel.Proofs.Json.Models
import StructModel.Proofs.Extract.Layers
import StructModel.Proofs.Extract.Excluded
import StructModel.Proofs.Extract.Resolution
import StructModel.Proofs.Extract.Spelled
import StructModel.Proofs.Tag.Words
import StructModel.Proofs.Tag.Positions
import StructModel.Proofs.Grammar.Derivation
import StructModel.Proofs.Go.Skeleton
import StructModel.Proofs.Go.Outline
import StructModel.Proofs.Go.Exports
import StructModel.Proofs.Grammar.Automaton
import StructModel.Proofs.Grammar.Soundness
import StructModel.Proofs.Go.Soundness
import StructModel.Proofs.Go.Parsed
import StructModel.Proofs.Extract.Comments
import StructModel.Proofs.Go.Structs
import StructModel.Proofs.Extract.Untagged
import StructModel.Proofs.Extract.Frame
