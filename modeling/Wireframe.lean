import Wireframe.Batch
import Wireframe.Check
import Wireframe.Check.DuplicateLinks
import Wireframe.Check.Headings
import Wireframe.Check.MetadataBlock
import Wireframe.Command
import Wireframe.Command.Arguments
import Wireframe.Command.Listing
import Wireframe.Command.Outcome
import Wireframe.Command.Reading
import Wireframe.Command.Run
import Wireframe.Data
import Wireframe.Decimal.Double
import Wireframe.Decimal.Numeral
import Wireframe.Decimal.Power
import Wireframe.Decimal.Shortest
import Wireframe.Disk
import Wireframe.Document
import Wireframe.Document.Reading
import Wireframe.Drawing.Layout
import Wireframe.Drawing.Shape
import Wireframe.Drawing.Svg
import Wireframe.Element
import Wireframe.FileSystem
import Wireframe.Finding
import Wireframe.Finding.Data
import Wireframe.Highlight
import Wireframe.Json.Reader
import Wireframe.Json.Writer
import Wireframe.Library
import Wireframe.Library.Builtin
import Wireframe.Library.Data
import Wireframe.Library.File
import Wireframe.Line.Rule
import Wireframe.Line.Span
import Wireframe.Main
import Wireframe.Metadata
import Wireframe.Naming
import Wireframe.Path
import Wireframe.Prompt
import Wireframe.Proofs.Xml.Escape
import Wireframe.Proofs.Xml.Exactness
import Wireframe.Proofs.Xml.Grammar
import Wireframe.Proofs.Xml.Reader
import Wireframe.Scalar
import Wireframe.Session
import Wireframe.Snippet
import Wireframe.Store
import Wireframe.Store.Directory
import Wireframe.Store.Memory
import Wireframe.Text.Blank
import Wireframe.Text.Case
import Wireframe.Text.CaseTable
import Wireframe.Text.Lines
import Wireframe.Text.Search
import Wireframe.Text.Slug
import Wireframe.Text.Word
import Wireframe.Text.WordTable
import Wireframe.Theme
import Wireframe.Theme.Data
import Wireframe.Theme.File
import Wireframe.Toml.Atom
import Wireframe.Toml.Moment
import Wireframe.Toml.Reader
import Wireframe.Toml.Statement
import Wireframe.Toml.Writer
import Wireframe.Volume
import Wireframe.Xml.Escape
import Wireframe.Xml.Node
import Wireframe.Proofs.Xml.LineEnds
import Wireframe.Proofs.Xml.Comment
import Wireframe.Proofs.Xml.Node
import Wireframe.Proofs.Drawing.Layout
import Wireframe.Proofs.Drawing.WellFormed
import Wireframe.Proofs.Drawing.VisibleText
import Wireframe.Proofs.Check.DuplicateLinks
import Wireframe.Proofs.Document.Sections
import Wireframe.Proofs.Text.Lines
import Wireframe.Proofs.Check.Outline
import Wireframe.Proofs.Document.Entries
import Wireframe.Proofs.Check.MetadataBlock
import Wireframe.Proofs.Naming.Title
import Wireframe.Proofs.LineEnds
import Wireframe.Proofs.Path.Pieces
import Wireframe.Proofs.Path.Names
import Wireframe.Proofs.FileSystem.Places
import Wireframe.Proofs.FileSystem.Files
import Wireframe.Proofs.FileSystem.Directories
import Wireframe.Proofs.FileSystem.Listing
import Wireframe.Proofs.Volume.Following
import Wireframe.Proofs.Volume.Changes
import Wireframe.Proofs.Volume.Trees
import Wireframe.Proofs.Store.Files
import Wireframe.Proofs.Store.Refinement
import Wireframe.Proofs.Batch.Rendering
import Wireframe.Proofs.Batch.Outputs
import Wireframe.Proofs.Batch.Sources
import Wireframe.Proofs.Batch.Order
import Wireframe.Proofs.Toml.Texts
import Wireframe.Proofs.Toml.Numbers
import Wireframe.Proofs.Toml.Statements
import Wireframe.Proofs.Toml.Tables
import Wireframe.Proofs.Decimal.Numerals
import Wireframe.Proofs.Decimal.Rounding
import Wireframe.Proofs.Decimal.Packing
import Wireframe.Proofs.Decimal.Nearest
import Wireframe.Proofs.Decimal.Shortest
import Wireframe.Proofs.Decimal.Doubles
import Wireframe.Proofs.Theme.RoundTrip
import Wireframe.Proofs.Batch.Clashes
import Wireframe.Proofs.Batch.Mirror
import Wireframe.Proofs.Check.LinkReports
import Wireframe.Proofs.Document.FillIns
import Wireframe.Proofs.Text.Runs
import Wireframe.Proofs.Text.Cuts
import Wireframe.Proofs.Line.Links
import Wireframe.Proofs.Line.Labels
import Wireframe.Proofs.Line.Rules
import Wireframe.Proofs.Text.Blanks
import Wireframe.Proofs.Check.HeadingLines
import Wireframe.Proofs.Check.WrittenLines
import Wireframe.Proofs.BlankLines
import Wireframe.Proofs.Check.StrayMetadata
import Wireframe.Proofs.Check.Returns
import Wireframe.Proofs.Check.Growth
import Wireframe.Proofs.Drawing.Skeleton
import Wireframe.Proofs.Drawing.Regions
import Wireframe.Proofs.Drawing.Enclosure
import Wireframe.Proofs.Drawing.Breadth
import Wireframe.Proofs.Store.Confinement
import Wireframe.Proofs.Store.Pages
import Wireframe.Proofs.Store.Listed
import Wireframe.Proofs.Batch.Discovery
import Wireframe.Proofs.Batch.Jobs
import Wireframe.Proofs.Toml.Names
import Wireframe.Proofs.Theme.Given
import Wireframe.Proofs.Theme.Overlay
import Wireframe.Proofs.Document.WellFormed
import Wireframe.Proofs.Line.Readings
import Wireframe.Proofs.Highlight.Markup
import Wireframe.Proofs.Highlight.Active
import Wireframe.Proofs.Highlight.Returns
import Wireframe.Proofs.Highlight.Listing
import Wireframe.Proofs.Naming.Slugs
import Wireframe.Proofs.Naming.FileNames
import Wireframe.Proofs.Xml.Remarks
import Wireframe.Proofs.Drawing.Purpose
import Wireframe.Snippet.Splice
import Wireframe.Proofs.Snippet.Insertion
import Wireframe.Proofs.Data
import Wireframe.Proofs.Data.Forms
import Wireframe.Proofs.Json.Atoms
import Wireframe.Proofs.Json.Values
import Wireframe.Proofs.Finding.Data
import Wireframe.Proofs.Finding.Reports
import Wireframe.Proofs.Library.Forms
