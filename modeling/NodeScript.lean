import NodeScript.Argument
import NodeScript.Calendar
import NodeScript.Catalogue
import NodeScript.Checksum
import NodeScript.Failure
import NodeScript.Fault
import NodeScript.Identifier
import NodeScript.Journal
import NodeScript.Json.Encoding
import NodeScript.Json.Reader
import NodeScript.Json.Writer
import NodeScript.Literal
import NodeScript.Number.Decimal
import NodeScript.Number.Double
import NodeScript.Number.Numeral
import NodeScript.Number.Reading
import NodeScript.Number.Shortest
import NodeScript.Placeholder
import NodeScript.Placeholder.Stacked
import NodeScript.Predefined
import NodeScript.Program.Basic
import NodeScript.Program.Compile
import NodeScript.Proofs.Agreement
import NodeScript.Proofs.Arguments
import NodeScript.Proofs.Balance
import NodeScript.Proofs.Breakdown
import NodeScript.Proofs.CallOrder
import NodeScript.Proofs.Calls
import NodeScript.Proofs.Capture
import NodeScript.Proofs.Checksums
import NodeScript.Proofs.Compilation
import NodeScript.Proofs.Constants
import NodeScript.Proofs.Coverage
import NodeScript.Proofs.Defaults
import NodeScript.Proofs.Delivery
import NodeScript.Proofs.Execution
import NodeScript.Proofs.Failures
import NodeScript.Proofs.Guard
import NodeScript.Proofs.Identifiers
import NodeScript.Proofs.Interning
import NodeScript.Proofs.Interruption
import NodeScript.Proofs.Linking
import NodeScript.Proofs.Messages
import NodeScript.Proofs.Naming
import NodeScript.Proofs.Nesting
import NodeScript.Proofs.Operands
import NodeScript.Proofs.Quotation
import NodeScript.Proofs.Reading
import NodeScript.Proofs.References
import NodeScript.Proofs.Reordering
import NodeScript.Proofs.Requests
import NodeScript.Proofs.Required
import NodeScript.Proofs.Restoring
import NodeScript.Proofs.Scoping
import NodeScript.Proofs.Segments
import NodeScript.Proofs.Serialization
import NodeScript.Proofs.Shapes
import NodeScript.Proofs.Signatures
import NodeScript.Proofs.Stack
import NodeScript.Proofs.Statements
import NodeScript.Proofs.Table
import NodeScript.Proofs.Termination
import NodeScript.Proofs.Text
import NodeScript.Proofs.Variables
import NodeScript.Proofs.WriteBack
import NodeScript.Proofs.Writing
import NodeScript.Proofs.Yaml.Documents
import NodeScript.Proofs.Yaml.Entries
import NodeScript.Proofs.Yaml.Scalars
import NodeScript.Proofs.Yaml.Spelling
import NodeScript.Proofs.Yields
import NodeScript.Script.Definition
import NodeScript.Script.Header
import NodeScript.Script.LogLevel
import NodeScript.Script.Node
import NodeScript.Script.Param
import NodeScript.Script.ParamKind
import NodeScript.Service
import NodeScript.Session.Basic
import NodeScript.Session.LogChannel
import NodeScript.Session.Scopes
import NodeScript.Session.Stamp
import NodeScript.Settings
import NodeScript.StringTable
import NodeScript.Template.Layout
import NodeScript.Template.Path
import NodeScript.Template.Piece
import NodeScript.Template.Render
import NodeScript.Text.Blank
import NodeScript.Text.Cased
import NodeScript.Text.Casing
import NodeScript.Text.CharSet
import NodeScript.Text.Digit
import NodeScript.Text.Hex
import NodeScript.Text.Printable
import NodeScript.Text.Quoted
import NodeScript.Text.Unit
import NodeScript.Value.Access
import NodeScript.Value.Basic
import NodeScript.Value.Normal
import NodeScript.Value.SetOrder
import NodeScript.Value.Show
import NodeScript.Value.Table
import NodeScript.Yaml.Char
import NodeScript.Yaml.Cursor
import NodeScript.Yaml.Data
import NodeScript.Yaml.Datum
import NodeScript.Yaml.Graph
import NodeScript.Yaml.Node
import NodeScript.Yaml.Scalar
import NodeScript.Yaml.Scan
import NodeScript.Yaml.Token
import NodeScript.Yaml.Writer
