import ApiAtlas.CommandLine.Arguments
import ApiAtlas.CommandLine.Command
import ApiAtlas.CommandLine.Input
import ApiAtlas.CommandLine.Invocation
import ApiAtlas.CommandLine.Report
import ApiAtlas.CommandLine.Run
import ApiAtlas.CommandLine.Screen
import ApiAtlas.Data.Access
import ApiAtlas.Data.Calendar
import ApiAtlas.Data.Datum
import ApiAtlas.Data.Named
import ApiAtlas.Data.Shown
import ApiAtlas.Document.Files
import ApiAtlas.Document.Load
import ApiAtlas.Endpoint.Basic
import ApiAtlas.Endpoint.Build
import ApiAtlas.Endpoint.Catalog
import ApiAtlas.Endpoint.Content
import ApiAtlas.Endpoint.Model
import ApiAtlas.Endpoint.Naming
import ApiAtlas.Fault
import ApiAtlas.Filter.Expression
import ApiAtlas.Filter.Field
import ApiAtlas.Filter.Operator
import ApiAtlas.Http.Message
import ApiAtlas.Http.Transport
import ApiAtlas.Json.Fault
import ApiAtlas.Json.Reader
import ApiAtlas.Json.Writer
import ApiAtlas.Main
import ApiAtlas.Number.Binary64
import ApiAtlas.Number.Notation
import ApiAtlas.Number.Shortest
import ApiAtlas.Proofs.Data.Entries
import ApiAtlas.Proofs.Filter.Body
import ApiAtlas.Proofs.Filter.Leaf
import ApiAtlas.Proofs.Filter.Items
import ApiAtlas.Proofs.Filter.Path
import ApiAtlas.Proofs.Http.Failure
import ApiAtlas.Proofs.Json.Reader
import ApiAtlas.Proofs.Related
import ApiAtlas.Proofs.Outcome
import ApiAtlas.Proofs.Schema.Parts
import ApiAtlas.Proofs.Stream.BufferCalls
import ApiAtlas.Proofs.Stream.Calls
import ApiAtlas.Proofs.Stream.Delivery
import ApiAtlas.Proofs.Stream.Lines
import ApiAtlas.Proofs.Stream.Records
import ApiAtlas.Proofs.Text.Blank
import ApiAtlas.Proofs.Text.Numeral
import ApiAtlas.Proofs.Text.Parts
import ApiAtlas.Proofs.Text.Utf8
import ApiAtlas.Request.Options
import ApiAtlas.Request.Selection
import ApiAtlas.Request.Variant
import ApiAtlas.Schema.Example
import ApiAtlas.Schema.Inline
import ApiAtlas.Schema.Reference
import ApiAtlas.Settings
import ApiAtlas.Stream.BufferCalls
import ApiAtlas.Stream.Consume
import ApiAtlas.Stream.Event
import ApiAtlas.Stream.Fetch
import ApiAtlas.Stream.LineBuffer
import ApiAtlas.Stream.Walk
import ApiAtlas.Table.Column
import ApiAtlas.Table.DisplayField
import ApiAtlas.Table.Calls
import ApiAtlas.Table.ViewStack
import ApiAtlas.Text.Base64
import ApiAtlas.Text.Blank
import ApiAtlas.Text.Cased
import ApiAtlas.Text.DecimalDigit
import ApiAtlas.Text.Encoding
import ApiAtlas.Text.LetterCase
import ApiAtlas.Text.Numeral
import ApiAtlas.Text.Parts
import ApiAtlas.Text.Percent
import ApiAtlas.Text.Printable
import ApiAtlas.Text.Quoted
import ApiAtlas.Text.Resemblance
import ApiAtlas.Validation.Checked
import ApiAtlas.Validation.Issue
import ApiAtlas.Yaml.Block
import ApiAtlas.Yaml.Character
import ApiAtlas.Yaml.Composition
import ApiAtlas.Yaml.Cursor
import ApiAtlas.Yaml.Form
import ApiAtlas.Yaml.Graph
import ApiAtlas.Yaml.Merge
import ApiAtlas.Yaml.Node
import ApiAtlas.Yaml.Number
import ApiAtlas.Yaml.Plain
import ApiAtlas.Yaml.Quoted
import ApiAtlas.Yaml.Resolution
import ApiAtlas.Yaml.ScalarValue
import ApiAtlas.Yaml.Token
import ApiAtlas.Yaml.TokenPile
import ApiAtlas.Yaml.TokenStream
import ApiAtlas.Yaml.Value
import ApiAtlas.Proofs.Schema.Preservation
import ApiAtlas.Proofs.Schema.Depth
import ApiAtlas.Proofs.Schema.Cycle
import ApiAtlas.Proofs.Data.Places
import ApiAtlas.Proofs.Data.Proper
import ApiAtlas.Proofs.Filter.Apart
import ApiAtlas.Proofs.Filter.Selection
import ApiAtlas.Proofs.Stream.Cancellation
import ApiAtlas.Proofs.Stream.OpenLine
import ApiAtlas.Proofs.Stream.Closing
import ApiAtlas.Proofs.Stream.Fetching
import ApiAtlas.Proofs.Data.Clear
import ApiAtlas.Proofs.Data.Named
import ApiAtlas.Proofs.Schema.Inlined
import ApiAtlas.Proofs.Schema.Example
import ApiAtlas.Proofs.Validation.Checked
import ApiAtlas.Proofs.Validation.ReadBack
import ApiAtlas.Proofs.CommandLine.Written
import ApiAtlas.Proofs.Data.Access
import ApiAtlas.Proofs.Endpoint.Building
import ApiAtlas.Proofs.Endpoint.Merging
import ApiAtlas.Proofs.Endpoint.Identity
import ApiAtlas.Proofs.Data.Shown
import ApiAtlas.Proofs.Endpoint.MediaType
import ApiAtlas.Proofs.Endpoint.Classification
import ApiAtlas.Proofs.Endpoint.SelfContained
import ApiAtlas.Proofs.Request.Variant
import ApiAtlas.Proofs.Filter.Nesting
import ApiAtlas.Proofs.Schema.Alongside
import ApiAtlas.Proofs.Schema.Synthesis
import ApiAtlas.Proofs.Table.Column
import ApiAtlas.Proofs.Table.ViewStack
import ApiAtlas.Proofs.Schema.Exchange
import ApiAtlas.Proofs.Table.Tree
import ApiAtlas.Proofs.Stream.Completion
import ApiAtlas.Proofs.Stream.Release
import ApiAtlas.Proofs.Schema.Conformance
import ApiAtlas.Proofs.Fault
import ApiAtlas.Proofs.Data.Json
import ApiAtlas.Proofs.Schema.Readable
import ApiAtlas.Proofs.Filter.Refusal
import ApiAtlas.Proofs.Endpoint.ReadBack
import ApiAtlas.Proofs.Endpoint.Refusal
import ApiAtlas.Proofs.Document.Loading
import ApiAtlas.Proofs.Request.Key
import ApiAtlas.Proofs.Request.Held
import ApiAtlas.Proofs.Occurrence
import ApiAtlas.Proofs.Endpoint.Overwriting
import ApiAtlas.Proofs.Table.KeyPath
import ApiAtlas.Proofs.Table.Listing
import ApiAtlas.Proofs.Text.Percent
import ApiAtlas.Proofs.Text.Replacement
import ApiAtlas.Proofs.Http.Options
import ApiAtlas.Proofs.Http.Release
import ApiAtlas.Proofs.Http.Template
import ApiAtlas.Proofs.Http.Address
import ApiAtlas.Proofs.Endpoint.DerivedName
import ApiAtlas.Proofs.Schema.Lookup
import ApiAtlas.Proofs.Filter.Nullable
import ApiAtlas.Proofs.Filter.Typing
import ApiAtlas.Proofs.Document.Notation
