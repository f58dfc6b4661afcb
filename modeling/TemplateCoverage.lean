import TemplateCoverage.Activity
import TemplateCoverage.Branch.Allocator
import TemplateCoverage.Branch.Basic
import TemplateCoverage.Branch.Index
import TemplateCoverage.Chart.Basic
import TemplateCoverage.Chart.Filter
import TemplateCoverage.CommandLine.Command
import TemplateCoverage.CommandLine.Error
import TemplateCoverage.CommandLine.Invocation
import TemplateCoverage.CommandLine.Message
import TemplateCoverage.CommandLine.Outcome
import TemplateCoverage.CommandLine.Parameter
import TemplateCoverage.CommandLine.Values
import TemplateCoverage.Config
import TemplateCoverage.CoverageRun
import TemplateCoverage.Decimal.Binary
import TemplateCoverage.Decimal.Fixed
import TemplateCoverage.Decimal.Reader
import TemplateCoverage.Decimal.Shortest
import TemplateCoverage.Discovery
import TemplateCoverage.Error
import TemplateCoverage.FileKind
import TemplateCoverage.FileSystem.Basic
import TemplateCoverage.FileSystem.Containment
import TemplateCoverage.FileSystem.Copy
import TemplateCoverage.FileSystem.Path
import TemplateCoverage.FileSystem.Resolve
import TemplateCoverage.FileSystem.Walk
import TemplateCoverage.FileSystem.Write
import TemplateCoverage.Instrument
import TemplateCoverage.Json.Basic
import TemplateCoverage.Json.Printer
import TemplateCoverage.Json.Reader
import TemplateCoverage.Json.Token
import TemplateCoverage.Listing
import TemplateCoverage.Log
import TemplateCoverage.Log.Filter
import TemplateCoverage.Main
import TemplateCoverage.Process
import TemplateCoverage.Proofs.Branch.Allocation
import TemplateCoverage.Proofs.Branch.Chart
import TemplateCoverage.Proofs.Branch.History
import TemplateCoverage.Proofs.Branch.Identifier
import TemplateCoverage.Proofs.Branch.Index
import TemplateCoverage.Proofs.Branch.Located
import TemplateCoverage.Proofs.Branch.Range
import TemplateCoverage.Proofs.Chart.Delivery
import TemplateCoverage.Proofs.Chart.Filter
import TemplateCoverage.Proofs.Chart.Restriction
import TemplateCoverage.Proofs.Decimal.Finite
import TemplateCoverage.Proofs.FileSystem.Containment
import TemplateCoverage.Proofs.FileSystem.Creation
import TemplateCoverage.Proofs.FileSystem.Following
import TemplateCoverage.Proofs.FileSystem.Lookup
import TemplateCoverage.Proofs.FileSystem.Path
import TemplateCoverage.Proofs.FileSystem.Replacement
import TemplateCoverage.Proofs.FileSystem.Sound
import TemplateCoverage.Proofs.Instrument.Insertion
import TemplateCoverage.Proofs.Instrument.Line
import TemplateCoverage.Proofs.Instrument.LineCount
import TemplateCoverage.Proofs.Instrument.LineEnd
import TemplateCoverage.Proofs.Instrument.Neutral
import TemplateCoverage.Proofs.Instrument.Placement
import TemplateCoverage.Proofs.Json.RoundTrip
import TemplateCoverage.Proofs.Pattern.Expression
import TemplateCoverage.Proofs.Pattern.Wildcard
import TemplateCoverage.Proofs.Report.Agreement
import TemplateCoverage.Proofs.Report.Anchor
import TemplateCoverage.Proofs.Report.Conservation
import TemplateCoverage.Proofs.Report.Element
import TemplateCoverage.Proofs.Report.Line
import TemplateCoverage.Proofs.Report.Merge
import TemplateCoverage.Proofs.Report.Name
import TemplateCoverage.Proofs.Report.Projection
import TemplateCoverage.Proofs.Run.Activity
import TemplateCoverage.Proofs.Run.FailFast
import TemplateCoverage.Proofs.Run.Program
import TemplateCoverage.Proofs.Run.Rendering
import TemplateCoverage.Proofs.Scan.Anchor
import TemplateCoverage.Proofs.Scan.Balance
import TemplateCoverage.Proofs.Scan.Bounds
import TemplateCoverage.Proofs.Scan.Laminar
import TemplateCoverage.Proofs.Scan.Occurrence
import TemplateCoverage.Proofs.Scan.Scope
import TemplateCoverage.Proofs.Scan.Step
import TemplateCoverage.Proofs.Scan.WellNested
import TemplateCoverage.Proofs.Session.History
import TemplateCoverage.Proofs.Session.Record
import TemplateCoverage.Proofs.Shell.Arithmetic
import TemplateCoverage.Proofs.Shell.Expansion
import TemplateCoverage.Proofs.Shell.Quoting
import TemplateCoverage.Proofs.Shell.Running
import TemplateCoverage.Proofs.Template.Control
import TemplateCoverage.Proofs.Template.Lexer
import TemplateCoverage.Proofs.Template.Literal
import TemplateCoverage.Proofs.Template.Reader
import TemplateCoverage.Proofs.Template.Semantics
import TemplateCoverage.Proofs.Template.Tolerance
import TemplateCoverage.Proofs.Template.TraceState
import TemplateCoverage.Proofs.Text.Boundary
import TemplateCoverage.Proofs.Text.Bytes
import TemplateCoverage.Proofs.Text.Line
import TemplateCoverage.Proofs.Text.LineEnd
import TemplateCoverage.Proofs.Text.Offset
import TemplateCoverage.Proofs.Text.Search
import TemplateCoverage.Proofs.Text.Trim
import TemplateCoverage.Proofs.Token.Evaluation
import TemplateCoverage.Proofs.Token.Grammar
import TemplateCoverage.Proofs.Token.Keyword
import TemplateCoverage.Proofs.Token.Pattern
import TemplateCoverage.Proofs.Token.Position
import TemplateCoverage.Proofs.Token.Quote
import TemplateCoverage.Proofs.Token.Search
import TemplateCoverage.Proofs.Token.Spelling
import TemplateCoverage.Proofs.Trace.Concatenation
import TemplateCoverage.Proofs.Trace.RoundTrip
import TemplateCoverage.Proofs.Utility.Calling
import TemplateCoverage.Proofs.Utility.Reading
import TemplateCoverage.Proofs.Utility.Selection
import TemplateCoverage.Proofs.Utility.Sorting
import TemplateCoverage.Proofs.Xml.Entity
import TemplateCoverage.Proofs.Xml.Tag
import TemplateCoverage.Regex.Basic
import TemplateCoverage.Regex.Reader
import TemplateCoverage.Renderer.Basic
import TemplateCoverage.Renderer.Program
import TemplateCoverage.Report.Basic
import TemplateCoverage.Report.Cobertura
import TemplateCoverage.Report.Format
import TemplateCoverage.Report.Json
import TemplateCoverage.Report.Text
import TemplateCoverage.Scan.Basic
import TemplateCoverage.Scan.File
import TemplateCoverage.Scan.Nesting
import TemplateCoverage.Session
import TemplateCoverage.Shell.Arithmetic
import TemplateCoverage.Shell.Builtin
import TemplateCoverage.Shell.Expansion
import TemplateCoverage.Shell.Interpreter
import TemplateCoverage.Shell.Lookup
import TemplateCoverage.Shell.Parser
import TemplateCoverage.Shell.PathPattern
import TemplateCoverage.Shell.Redirect
import TemplateCoverage.Shell.Source
import TemplateCoverage.Shell.State
import TemplateCoverage.Shell.Syntax
import TemplateCoverage.Shell.WordReader
import TemplateCoverage.Template.Literal
import TemplateCoverage.Template.Tracking
import TemplateCoverage.Text.Blank
import TemplateCoverage.Text.Bytes
import TemplateCoverage.Text.Line
import TemplateCoverage.Text.Quoted
import TemplateCoverage.Text.Search
import TemplateCoverage.Text.Utf8
import TemplateCoverage.Text.Visible
import TemplateCoverage.Text.WordChar
import TemplateCoverage.Token.Basic
import TemplateCoverage.Token.Evaluation
import TemplateCoverage.Token.Line
import TemplateCoverage.Token.Quote
import TemplateCoverage.Trace
import TemplateCoverage.Utility.Basic
import TemplateCoverage.Utility.Character
import TemplateCoverage.Utility.Compare
import TemplateCoverage.Utility.Condition
import TemplateCoverage.Utility.Directory
import TemplateCoverage.Utility.Environment
import TemplateCoverage.Utility.Expression
import TemplateCoverage.Utility.Find
import TemplateCoverage.Utility.Grep
import TemplateCoverage.Utility.Line
import TemplateCoverage.Utility.Name
import TemplateCoverage.Utility.Print
import TemplateCoverage.Utility.Sed.Basic
import TemplateCoverage.Utility.Sed.Reader
import TemplateCoverage.Utility.Sed.Run
import TemplateCoverage.Utility.Sort
import TemplateCoverage.Utility.Table
import TemplateCoverage.Utility.Transfer
import TemplateCoverage.Wildcard
import TemplateCoverage.Workspace
import TemplateCoverage.Xml
import TemplateCoverage.Yaml.Character
import TemplateCoverage.Yaml.Node
import TemplateCoverage.Yaml.Property
import TemplateCoverage.Yaml.Reader
import TemplateCoverage.Yaml.Scalar
import TemplateCoverage.Yaml.Token
import TemplateCoverage.Yaml.TokenStream
import TemplateCoverage.Yaml.Value
