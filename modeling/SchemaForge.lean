import SchemaForge.Schema.Json
import SchemaForge.Files.Disk
import SchemaForge.Main
import SchemaForge.Toml.Standard
import SchemaForge.Proofs.Generation.Pass
import SchemaForge.Proofs.Generation.Declarations
import SchemaForge.Proofs.Generation.Identifiers
import SchemaForge.Proofs.Files.Path
import SchemaForge.Proofs.Files.Disk
import SchemaForge.Proofs.Files.Writing
import SchemaForge.Proofs.Plan
import SchemaForge.Proofs.Resolution.Counterparts
import SchemaForge.Proofs.Resolution.Names
import SchemaForge.Proofs.Generation.Imports
import SchemaForge.Proofs.Generation.Numbering
import SchemaForge.Proofs.Emitter.Unambiguous
import SchemaForge.Proofs.Generation.Locality
import SchemaForge.Proofs.Json.Ordered
import SchemaForge.Proofs.Except
import SchemaForge.Proofs.Decode.Record
import SchemaForge.Proofs.Document.Grammar
import SchemaForge.Proofs.Document.RoundTrip
import SchemaForge.Proofs.Command.Validation
import SchemaForge.Proofs.Resolution.Order
import SchemaForge.Proofs.Generation.Markers
import SchemaForge.Proofs.Document.Undeclared
import SchemaForge.Proofs.Command.Effects
import SchemaForge.Proofs.Resolution.FixedPoint
import SchemaForge.Proofs.Emitter.Depth
import SchemaForge.Proofs.Schema.RoundTrip
import SchemaForge.Proofs.Schema.Substitution
import SchemaForge.Proofs.Text.Escape
import SchemaForge.Proofs.Generation.Specifiers
import SchemaForge.Proofs.Generation.LineEndings
import SchemaForge.Proofs.Generation.Overrides
import SchemaForge.Proofs.Command.Precedence
