import PipelineManager.Agent.Basic
import PipelineManager.Agent.Fleet
import PipelineManager.Agent.Job
import PipelineManager.BuildServer.Address
import PipelineManager.BuildServer.Answer
import PipelineManager.BuildServer.Client
import PipelineManager.BuildServer.Dialogue
import PipelineManager.Catalogue.Basic
import PipelineManager.Catalogue.File
import PipelineManager.Catalogue.Import
import PipelineManager.CommandLine.Arguments
import PipelineManager.CommandLine.Command
import PipelineManager.CommandLine.Listing
import PipelineManager.CommandLine.Run
import PipelineManager.Config.Basic
import PipelineManager.Config.File
import PipelineManager.Descriptor.Basic
import PipelineManager.Descriptor.Form
import PipelineManager.Document.Field
import PipelineManager.Document.Json.Indented
import PipelineManager.Document.Json.Reader
import PipelineManager.Document.Json.Writer
import PipelineManager.Document.Toml.Item
import PipelineManager.Document.Toml.Reader
import PipelineManager.Document.Toml.Scalar
import PipelineManager.Document.Toml.Text
import PipelineManager.Document.Value
import PipelineManager.Document.Yaml.Cursor
import PipelineManager.Document.Yaml.Node
import PipelineManager.Document.Yaml.Reading
import PipelineManager.Document.Yaml.Scalar
import PipelineManager.Document.Yaml.Token
import PipelineManager.Files.Access
import PipelineManager.Files.Tree
import PipelineManager.Http.Exchange
import PipelineManager.Http.Form
import PipelineManager.Http.MediaType
import PipelineManager.Http.Payload
import PipelineManager.Http.Record
import PipelineManager.Http.Route
import PipelineManager.Http.SocketAddress
import PipelineManager.Main
import PipelineManager.Number.Binary64
import PipelineManager.Number.Decimal
import PipelineManager.Number.Word
import PipelineManager.Pipeline.Builtin
import PipelineManager.Pipeline.Command
import PipelineManager.Pipeline.Script
import PipelineManager.Pipeline.ShellWord
import PipelineManager.Pipeline.Slot
import PipelineManager.Pipeline.Template
import PipelineManager.Proofs.BuildServer.Credential
import PipelineManager.Proofs.Catalogue.Row
import PipelineManager.Proofs.CommandLine.Offline
import PipelineManager.Proofs.Descriptor.Content
import PipelineManager.Proofs.Descriptor.Parsing
import PipelineManager.Proofs.Descriptor.Reading
import PipelineManager.Proofs.Document.Table
import PipelineManager.Proofs.Pipeline.BuiltinLines
import PipelineManager.Proofs.Pipeline.Exports
import PipelineManager.Proofs.Pipeline.Filling
import PipelineManager.Proofs.Pipeline.LineEnds
import PipelineManager.Proofs.Pipeline.Markers
import PipelineManager.Proofs.Pipeline.Obtaining
import PipelineManager.Proofs.Pipeline.Rendering
import PipelineManager.Proofs.Pipeline.ShellReading
import PipelineManager.Proofs.Pipeline.ShellSteps
import PipelineManager.Proofs.Pipeline.StageReports
import PipelineManager.Proofs.Pipeline.TemplateParsing
import PipelineManager.Proofs.Pipeline.TestCommands
import PipelineManager.Proofs.Schema.Conformance
import PipelineManager.Proofs.Schema.Findings
import PipelineManager.Proofs.Service.Authorization
import PipelineManager.Proofs.Service.Execution
import PipelineManager.Proofs.Service.Facts
import PipelineManager.Proofs.Service.Lifecycle
import PipelineManager.Proofs.Service.Names
import PipelineManager.Proofs.Service.Publication
import PipelineManager.Proofs.Service.Race
import PipelineManager.Proofs.Service.Registration
import PipelineManager.Proofs.Service.Rejection
import PipelineManager.Proofs.Service.Reports
import PipelineManager.Proofs.Service.Requests
import PipelineManager.Proofs.Service.Retry
import PipelineManager.Proofs.Service.Session
import PipelineManager.Proofs.Service.Settled
import PipelineManager.Proofs.Service.Stages
import PipelineManager.Proofs.Service.Steps
import PipelineManager.Proofs.Service.Submitted
import PipelineManager.Proofs.Service.TestNames
import PipelineManager.Proofs.Service.Tokens
import PipelineManager.Proofs.Service.Trial
import PipelineManager.Proofs.Service.Underway
import PipelineManager.Proofs.Service.Verdicts
import PipelineManager.Proofs.Store.Catalogue
import PipelineManager.Proofs.Store.History
import PipelineManager.Proofs.Store.Import
import PipelineManager.Proofs.Store.Integrity
import PipelineManager.Proofs.Store.StatusLog
import PipelineManager.Proofs.Text.ByteOrder
import PipelineManager.Proofs.Validation.Judgement
import PipelineManager.Proofs.Warehouse.Upload
import PipelineManager.Results.Report
import PipelineManager.Run.State
import PipelineManager.Schema.Check
import PipelineManager.Schema.Rule
import PipelineManager.Service.Call
import PipelineManager.Service.Callback
import PipelineManager.Service.Error
import PipelineManager.Service.Submission
import PipelineManager.Service.World
import PipelineManager.Store.Basic
import PipelineManager.Store.Document
import PipelineManager.Store.StatusLog
import PipelineManager.Text.Blank
import PipelineManager.Text.Column
import PipelineManager.Text.Lines
import PipelineManager.Text.Parts
import PipelineManager.Text.Quoted
import PipelineManager.Text.Search
import PipelineManager.Text.Utf8
import PipelineManager.Text.WordChar
import PipelineManager.Time.Calendar
import PipelineManager.Time.Moment
import PipelineManager.Validation.Semantics
import PipelineManager.Warehouse.Basic
import PipelineManager.Warehouse.Location
import PipelineManager.Proofs.Warehouse.Writes
import PipelineManager.Proofs.Service.Writes
import PipelineManager.Proofs.Service.Archives
import PipelineManager.Proofs.Service.Separation
import PipelineManager.Proofs.Files.Ways
import PipelineManager.Proofs.Warehouse.Hosting
import PipelineManager.Proofs.Service.Containment
import PipelineManager.Proofs.Text.Search
import PipelineManager.Proofs.Pipeline.ShellWords
import PipelineManager.Proofs.Results.Evidence
import PipelineManager.Proofs.Service.Footprint
import PipelineManager.Proofs.Secrets
import PipelineManager.Proofs.Agent.Markup
import PipelineManager.Proofs.Agent.JobDocument
import PipelineManager.Proofs.Agent.Selection
import PipelineManager.Proofs.Document.Entries
import PipelineManager.Proofs.Descriptor.Writing
import PipelineManager.Proofs.Descriptor.Completion
import PipelineManager.Proofs.Validation.Rearrangement
import PipelineManager.Proofs.Text.Digits
import PipelineManager.Proofs.Schema.Spelling
import PipelineManager.Proofs.Schema.Paths
import PipelineManager.Proofs.Validation.Multiplicity
import PipelineManager.Proofs.Time.Chronology
import PipelineManager.Proofs.Results.StatusTags
import PipelineManager.Proofs.Results.TimeSpan
