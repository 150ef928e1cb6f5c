import BuildDiagnostics.Text.Blank
import BuildDiagnostics.Text.Decimal
import BuildDiagnostics.Text.Hexadecimal
import BuildDiagnostics.Text.Letter
import BuildDiagnostics.Text.Lines
import BuildDiagnostics.Text.Offset
import BuildDiagnostics.Text.Split
import BuildDiagnostics.Text.Terminal
import BuildDiagnostics.Text.Utf8
import BuildDiagnostics.Json
import BuildDiagnostics.Severity
import BuildDiagnostics.Location
import BuildDiagnostics.Diagnostic
import BuildDiagnostics.Diagnostic.ByLocation
import BuildDiagnostics.Block
import BuildDiagnostics.Block.Header
import BuildDiagnostics.Block.Segmenter
import BuildDiagnostics.Log.Event
import BuildDiagnostics.Log.Pattern
import BuildDiagnostics.Log.Filter
import BuildDiagnostics.Extraction
import BuildDiagnostics.Output
import BuildDiagnostics.Path
import BuildDiagnostics.Path.FileUri
import BuildDiagnostics.Document.Key
import BuildDiagnostics.Document.Publish
import BuildDiagnostics.Document.Snapshot
import BuildDiagnostics.Document.Store
import BuildDiagnostics.Build.ByteStream
import BuildDiagnostics.Build.Session
import BuildDiagnostics.Toml.Reader
import BuildDiagnostics.Toml.Number
import BuildDiagnostics.Toml.Datetime
import BuildDiagnostics.Toml.Quoted
import BuildDiagnostics.Toml.Value
import BuildDiagnostics.Toml.Document
import BuildDiagnostics.Settings.Expansion
import BuildDiagnostics.Settings.Config
import BuildDiagnostics.Command.Arguments
import BuildDiagnostics.Command.Run
import BuildDiagnostics.Main
import BuildDiagnostics.Proofs.Grouping
import BuildDiagnostics.Proofs.ByLocation
import BuildDiagnostics.Proofs.Segmentation
import BuildDiagnostics.Proofs.Positions
import BuildDiagnostics.Proofs.Publishing
import BuildDiagnostics.Proofs.Store
import BuildDiagnostics.Proofs.Streams
import BuildDiagnostics.Proofs.Run
import BuildDiagnostics.Proofs.DisplayLine
import BuildDiagnostics.Proofs.Lines
import BuildDiagnostics.Proofs.Header
import BuildDiagnostics.Proofs.Reprinting
import BuildDiagnostics.Proofs.Concatenation
import BuildDiagnostics.Proofs.Growth
import BuildDiagnostics.Proofs.SegmenterHistory
import BuildDiagnostics.Proofs.Utf8
import BuildDiagnostics.Proofs.PercentEncoding
import BuildDiagnostics.Proofs.LexicalPath
import BuildDiagnostics.Proofs.DocumentIdentity
import BuildDiagnostics.Proofs.Snapshot
import BuildDiagnostics.Proofs.StoreHistory
import BuildDiagnostics.Proofs.Sessions
import BuildDiagnostics.Proofs.ContextLines
import BuildDiagnostics.Proofs.JsonTokens
import BuildDiagnostics.Proofs.JsonReading
import BuildDiagnostics.Proofs.JsonForm
import BuildDiagnostics.Proofs.PublishedOrder
import BuildDiagnostics.Proofs.HeaderGrammar
import BuildDiagnostics.Proofs.PositionGrammar
import BuildDiagnostics.Proofs.ColumnRange
import BuildDiagnostics.Proofs.CompilerHeader
import BuildDiagnostics.Proofs.ByteOrder
import BuildDiagnostics.Proofs.SnapshotOrder
import BuildDiagnostics.Proofs.PathSpelling
import BuildDiagnostics.Proofs.References
import BuildDiagnostics.Proofs.Decoding
import BuildDiagnostics.Proofs.CapturedText
import BuildDiagnostics.Proofs.EchoedLines
import BuildDiagnostics.Proofs.Iteration
import BuildDiagnostics.Proofs.LineEnds
import BuildDiagnostics.Proofs.Reordering
