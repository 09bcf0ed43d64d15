import ImpHost.Cli.Flag
import ImpHost.Cli.Help
import ImpHost.Cli.Job
import ImpHost.Cli.Log
import ImpHost.Cli.Reading
import ImpHost.Cli.Start
import ImpHost.Cli.Verb
import ImpHost.Diagnostic.Basic
import ImpHost.Diagnostic.Json
import ImpHost.Double.Basic
import ImpHost.Double.Shortest
import ImpHost.Engine
import ImpHost.Files
import ImpHost.Html.Basic
import ImpHost.Html.Executions
import ImpHost.Html.Layout
import ImpHost.Html.Playground
import ImpHost.Html.Programs
import ImpHost.Http.Basic
import ImpHost.Http.Executions
import ImpHost.Http.Form
import ImpHost.Http.Interpreter
import ImpHost.Http.Pages
import ImpHost.Http.Programs
import ImpHost.Http.Route
import ImpHost.Http.Server
import ImpHost.Json.Basic
import ImpHost.Json.Indent
import ImpHost.Json.Reader
import ImpHost.Json.Record
import ImpHost.Main
import ImpHost.Manifest.Basic
import ImpHost.Manifest.File
import ImpHost.Memory.Basic
import ImpHost.Memory.Json
import ImpHost.Parsed
import ImpHost.Problem
import ImpHost.Program.Basic
import ImpHost.Program.Eval
import ImpHost.Program.Machine
import ImpHost.Program.Parser
import ImpHost.Program.Printer
import ImpHost.Registry.Basic
import ImpHost.Registry.Codec
import ImpHost.Registry.Database
import ImpHost.Registry.Open
import ImpHost.Registry.Record
import ImpHost.Resource
import ImpHost.Rpc
import ImpHost.Scalar
import ImpHost.Service.Basic
import ImpHost.Service.Directory
import ImpHost.Table
import ImpHost.Text.Basic
import ImpHost.Text.CharClass
import ImpHost.Text.Decimal
import ImpHost.Text.Digits
import ImpHost.Text.Graphics
import ImpHost.Text.Letters
import ImpHost.Text.Quoted
import ImpHost.Time.Calendar
import ImpHost.Time.Instant
import ImpHost.Time.Span
import ImpHost.Token.Basic
import ImpHost.Token.Lexer
import ImpHost.Value
import ImpHost.Yaml.Characters
import ImpHost.Yaml.Cursor
import ImpHost.Yaml.Node
import ImpHost.Yaml.Resolve
import ImpHost.Yaml.Scalar
import ImpHost.Yaml.Scanner
import ImpHost.Yaml.Token
import ImpHost.Proofs.Program.Evaluation
import ImpHost.Proofs.Program.Grammar
import ImpHost.Proofs.Program.Hooks
import ImpHost.Proofs.Program.Loop
import ImpHost.Proofs.Program.Meaning
import ImpHost.Proofs.Program.Normal
import ImpHost.Proofs.Program.Parsing
import ImpHost.Proofs.Program.RoundTrip
import ImpHost.Proofs.Program.Safety
import ImpHost.Proofs.Program.Size
import ImpHost.Proofs.Program.Variables
import ImpHost.Proofs.Encoding
import ImpHost.Proofs.Engine.Budget
import ImpHost.Proofs.Engine.Cancellation
import ImpHost.Proofs.Engine.Slices
import ImpHost.Proofs.Json.Numbers
import ImpHost.Proofs.Json.Reading
import ImpHost.Proofs.Manifest
import ImpHost.Proofs.Manifest.Arguments
import ImpHost.Proofs.Manifest.Forms
import ImpHost.Proofs.Memory
import ImpHost.Proofs.Registry.Executions
import ImpHost.Proofs.Registry.Histories
import ImpHost.Proofs.Registry.Numbering
import ImpHost.Proofs.Registry.Opening
import ImpHost.Proofs.Registry.Operations
import ImpHost.Proofs.Registry.Rereading
import ImpHost.Proofs.Registry.Revisions
import ImpHost.Proofs.Registry.Settling
import ImpHost.Proofs.Resource
import ImpHost.Proofs.Service.Agreement
import ImpHost.Proofs.Service.Cancellation
import ImpHost.Proofs.Service.Course
import ImpHost.Proofs.Service.Histories
import ImpHost.Proofs.Service.Interleaving
import ImpHost.Proofs.Service.Lifecycle
import ImpHost.Proofs.Service.Outcomes
import ImpHost.Proofs.Service.Rejection
import ImpHost.Proofs.Service.Replay
import ImpHost.Proofs.Service.Runnable
import ImpHost.Proofs.Service.Sequential
import ImpHost.Proofs.Service.Serving
import ImpHost.Proofs.Text
import ImpHost.Proofs.Yaml.Mapping
import ImpHost.Proofs.Yaml.Reading
import ImpHost.Proofs.Yaml.Scanning
import ImpHost.Proofs.Program.Frame
import ImpHost.Proofs.Program.Rejection
import ImpHost.Proofs.Program.Notes
import ImpHost.Proofs.Program.Transparency
import ImpHost.Proofs.Json.Grammar
import ImpHost.Proofs.Json.Parsing
import ImpHost.Proofs.Memory.Acceptance
import ImpHost.Proofs.Memory.Numerals
import ImpHost.Proofs.Memory.RoundTrip
import ImpHost.Proofs.Diagnostic
import ImpHost.Proofs.Service.Failures
import ImpHost.Proofs.Resource.Names
import ImpHost.Proofs.Http.Links
import ImpHost.Proofs.Registry.Reopening
import ImpHost.Proofs.Registry.Listings
import ImpHost.Proofs.Double
import ImpHost.Proofs.Yaml.Words
import ImpHost.Proofs.Yaml.Integers
import ImpHost.Proofs.Manifest.Integers
import ImpHost.Proofs.Program.Equality
import ImpHost.Proofs.Token.Machine
import ImpHost.Proofs.Token.Respacing
import ImpHost.Proofs.Program.Positions
import ImpHost.Proofs.Memory.History
import ImpHost.Proofs.Service.Loading
