import Manuscript.Archive.Codec
import Manuscript.Archive.Content
import Manuscript.Archive.Crc32
import Manuscript.Archive.Deflate
import Manuscript.Archive.Directory
import Manuscript.Archive.End
import Manuscript.Archive.Fault
import Manuscript.Archive.Field
import Manuscript.Archive.Packing
import Manuscript.Archive.Writer
import Manuscript.Assembly
import Manuscript.Base64
import Manuscript.CommandLine.Arguments
import Manuscript.CommandLine.Command
import Manuscript.CommandLine.Plan
import Manuscript.Delivery
import Manuscript.Document
import Manuscript.Document.Json
import Manuscript.Error
import Manuscript.Extractor
import Manuscript.FileTree
import Manuscript.Foreign
import Manuscript.Format
import Manuscript.Inline
import Manuscript.Inline.Json
import Manuscript.Json.Collection
import Manuscript.Json.Fault
import Manuscript.Json.Printer
import Manuscript.Json.Reader
import Manuscript.Json.Real
import Manuscript.Json.Record
import Manuscript.Json.Scan
import Manuscript.Json.Skip
import Manuscript.Json.Value
import Manuscript.Line
import Manuscript.Line.Json
import Manuscript.Main
import Manuscript.Path
import Manuscript.Registry
import Manuscript.Stats
import Manuscript.Stats.Json
import Manuscript.Style
import Manuscript.Style.Color
import Manuscript.Style.Json
import Manuscript.Synthesis
import Manuscript.SystemError
import Manuscript.Text.Blank
import Manuscript.Text.Decimal
import Manuscript.Text.Lines
import Manuscript.Text.Lowercase
import Manuscript.Text.Quoted
import Manuscript.Text.Table
import Manuscript.Text.Utf8
import Manuscript.Wordprocessing.Markup
import Manuscript.Wordprocessing.Package
import Manuscript.Wordprocessing.Parts
import Manuscript.Wordprocessing.Reading
import Manuscript.Workspace
import Manuscript.Xml.Entity
import Manuscript.Xml.Escape
import Manuscript.Xml.Event
import Manuscript.Xml.Fault
import Manuscript.Xml.Piece
import Manuscript.Xml.Token
import Manuscript.Proofs.Archive.Fields
import Manuscript.Proofs.Archive.Records
import Manuscript.Proofs.Archive.RoundTrip
import Manuscript.Proofs.Archive.Streams
import Manuscript.Proofs.Assembly
import Manuscript.Proofs.Assembly.Steps
import Manuscript.Proofs.Base64
import Manuscript.Proofs.CommandLine.Batch
import Manuscript.Proofs.CommandLine.DefaultOutput
import Manuscript.Proofs.CommandLine.Info
import Manuscript.Proofs.CommandLine.Options
import Manuscript.Proofs.CommandLine.Single
import Manuscript.Proofs.CommandLine.Sources
import Manuscript.Proofs.CommandLine.StyleFile
import Manuscript.Proofs.CommandLine.Targets
import Manuscript.Proofs.CommandLine.TextFiles
import Manuscript.Proofs.CommandLine.Writing
import Manuscript.Proofs.Delivery.FileName
import Manuscript.Proofs.Delivery.Payload
import Manuscript.Proofs.Dumps
import Manuscript.Proofs.Extractor
import Manuscript.Proofs.FileTree
import Manuscript.Proofs.Foreign
import Manuscript.Proofs.Format
import Manuscript.Proofs.Inline.Dropped
import Manuscript.Proofs.Inline.Factorization
import Manuscript.Proofs.Inline.First
import Manuscript.Proofs.Inline.Markers
import Manuscript.Proofs.Inline.Printing
import Manuscript.Proofs.Inline.Stars
import Manuscript.Proofs.Json.Any
import Manuscript.Proofs.Json.Collection
import Manuscript.Proofs.Json.Entries
import Manuscript.Proofs.Json.Grammar
import Manuscript.Proofs.Json.Members
import Manuscript.Proofs.Json.Printing
import Manuscript.Proofs.Json.Reading
import Manuscript.Proofs.Json.Scanning
import Manuscript.Proofs.Line.Endings
import Manuscript.Proofs.Line.Grammar
import Manuscript.Proofs.Line.Printing
import Manuscript.Proofs.Path
import Manuscript.Proofs.Path.Parent
import Manuscript.Proofs.Registry
import Manuscript.Proofs.Registry.Detected
import Manuscript.Proofs.SourceText
import Manuscript.Proofs.Stats
import Manuscript.Proofs.Stats.Words
import Manuscript.Proofs.Style.Content
import Manuscript.Proofs.Style.Knobs
import Manuscript.Proofs.Style.RoundTrip
import Manuscript.Proofs.Synthesis
import Manuscript.Proofs.Text.Decimal
import Manuscript.Proofs.Text.Lines
import Manuscript.Proofs.Text.Utf8
import Manuscript.Proofs.Text.Utf8Heads
import Manuscript.Proofs.Text.Words
import Manuscript.Proofs.Wordprocessing.Body
import Manuscript.Proofs.Wordprocessing.Distinct
import Manuscript.Proofs.Wordprocessing.Fonts
import Manuscript.Proofs.Wordprocessing.Ledger
import Manuscript.Proofs.Wordprocessing.Limit
import Manuscript.Proofs.Wordprocessing.Markup
import Manuscript.Proofs.Wordprocessing.Nesting
import Manuscript.Proofs.Wordprocessing.Package
import Manuscript.Proofs.Wordprocessing.Properties
import Manuscript.Proofs.Wordprocessing.Reading
import Manuscript.Proofs.Wordprocessing.RoundTrip
import Manuscript.Proofs.Wordprocessing.Sizes
import Manuscript.Proofs.Wordprocessing.Tags
import Manuscript.Proofs.Xml.Attributes
import Manuscript.Proofs.Xml.Distinct
import Manuscript.Proofs.Xml.Entities
import Manuscript.Proofs.Xml.Escaping
import Manuscript.Proofs.Xml.Omission
import Manuscript.Proofs.Xml.References
import Manuscript.Proofs.Xml.Sizes
import Manuscript.Proofs.Xml.Tags
import Manuscript.Proofs.Xml.Tokens
import Manuscript.Proofs.Xml.Tree
import Manuscript.Proofs.Xml.WellFormed
