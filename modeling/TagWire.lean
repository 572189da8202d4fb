import TagWire.Command.Arguments
import TagWire.Command.Basic
import TagWire.Compile
import TagWire.Decimal.Layout
import TagWire.Decimal.Shortest
import TagWire.Emit.Data
import TagWire.Emit.Message
import TagWire.Emit.Output
import TagWire.Emit.Phrase
import TagWire.Emit.Routine
import TagWire.Emit.Service
import TagWire.Error
import TagWire.Files.Error
import TagWire.Files.Path
import TagWire.Files.Store
import TagWire.Files.Tree
import TagWire.Generate
import TagWire.Json.Basic
import TagWire.Json.Read
import TagWire.Keyed
import TagWire.Main
import TagWire.Names
import TagWire.Proofs.Keyed
import TagWire.Proofs.Outcome
import TagWire.Proofs.Sample.Agreement
import TagWire.Proofs.Sample.Tree
import TagWire.Proofs.Schema.WellFormed
import TagWire.Proofs.Typed.Alike
import TagWire.Proofs.Typed.Codec
import TagWire.Proofs.Typed.Format
import TagWire.Proofs.Typed.Likeness
import TagWire.Proofs.Value.Canonical
import TagWire.Proofs.Value.Conforming
import TagWire.Proofs.Value.Decoding
import TagWire.Proofs.Value.Encoding
import TagWire.Proofs.Value.Framing
import TagWire.Proofs.Value.Occurrence
import TagWire.Proofs.Value.Reading
import TagWire.Proofs.Value.RoundTrip
import TagWire.Proofs.Wire.Passing
import TagWire.Rpc.Router
import TagWire.Rpc.Service
import TagWire.Sample.Cases
import TagWire.Sample.Contacts
import TagWire.Sample.Demo
import TagWire.Sample.Directory
import TagWire.Sample.Schemas
import TagWire.Sample.Search
import TagWire.Sample.SearchService
import TagWire.Schema.Decl
import TagWire.Schema.Json
import TagWire.Schema.Parser
import TagWire.Schema.Resolve
import TagWire.Schema.Stream
import TagWire.Schema.Token
import TagWire.Text.Blank
import TagWire.Text.Case
import TagWire.Text.CaseTable
import TagWire.Text.CodeRange
import TagWire.Text.Printable
import TagWire.Text.Quoted
import TagWire.Text.Shown
import TagWire.Text.Utf8
import TagWire.Typed.Codec
import TagWire.Typed.Format
import TagWire.Typed.JsonMessage
import TagWire.Typed.Table
import TagWire.Value.Basic
import TagWire.Value.Decode
import TagWire.Value.Encode
import TagWire.Value.Error
import TagWire.Value.Inspect
import TagWire.Value.Json
import TagWire.Wire.Cursor
import TagWire.Wire.Error
import TagWire.Wire.Float
import TagWire.Wire.Inspect
import TagWire.Wire.Item
import TagWire.Wire.Kind
import TagWire.Wire.LittleEndian
import TagWire.Wire.Scalar
import TagWire.Proofs.Schema.Grammar
import TagWire.Proofs.Schema.Recognition
import TagWire.Proofs.Schema.Declarations
import TagWire.Proofs.Schema.Lexemes
import TagWire.Proofs.Schema.Parsing
import TagWire.Proofs.Schema.Shifting
import TagWire.Proofs.Schema.Concatenation
import TagWire.Proofs.Schema.Resolution
import TagWire.Proofs.Value.Compatibility
import TagWire.Proofs.Typed.Recovery
import TagWire.Proofs.Sample.Calls
import TagWire.Proofs.Schema.Signature
import TagWire.Proofs.Words
import TagWire.Proofs.Emit.Uses
import TagWire.Proofs.Emit.Code
import TagWire.Proofs.Emit.Table
import TagWire.Proofs.Emit.Sharing
import TagWire.Proofs.Wire.Items
import TagWire.Proofs.Sample.TreeRecovery
import TagWire.Proofs.Value.InitialRun
import TagWire.Proofs.Text.Utf8Order
import TagWire.Proofs.Sample.RouterRuns
import TagWire.Proofs.Value.Truncation
import TagWire.Proofs.Value.Size
import TagWire.Proofs.Value.JsonForm
import TagWire.Proofs.Value.MapOrder
import TagWire.Proofs.Value.Acceptance
import TagWire.Proofs.Value.Required
import TagWire.Proofs.Schema.Rounds
import TagWire.Proofs.Schema.Endings
import TagWire.Proofs.Schema.WrittenTypes
import TagWire.Proofs.Wire.Movement
import TagWire.Proofs.Emit.Identifiers
import TagWire.Proofs.Files.Path
import TagWire.Proofs.Files.Tree
import TagWire.Proofs.Files.Writing
import TagWire.Proofs.Files.Generation
import TagWire.Proofs.Json.Strings
import TagWire.Proofs.Json.Reading
import TagWire.Proofs.Sample.Contacts
import TagWire.Proofs.SnakeCase
import TagWire.Proofs.Value.Nesting
import TagWire.Proofs.Generated.Syntax
import TagWire.Proofs.Generated.Text
import TagWire.Proofs.Generated.Datum
import TagWire.Proofs.Generated.Run
import TagWire.Proofs.Generated.Correspondence
import TagWire.Proofs.Generated.Presence
import TagWire.Proofs.Generated.Writing
import TagWire.Proofs.Generated.Reading
import TagWire.Proofs.Generated.Typing
import TagWire.Proofs.Generated.Serving
import TagWire.Proofs.Generated.Services
import TagWire.Proofs.Generated.Agreement
import TagWire.Proofs.Generated.Typed
import TagWire.Proofs.Generated.Calls
import TagWire.Proofs.Generated.Json
import TagWire.Proofs.Json.Text
