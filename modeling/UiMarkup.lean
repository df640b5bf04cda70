import UiMarkup.Command.Arguments
import UiMarkup.Command.Check
import UiMarkup.Command.Expression
import UiMarkup.Command.Inspect
import UiMarkup.Command.Printing
import UiMarkup.Command.Run
import UiMarkup.Command.Themes
import UiMarkup.Console.CellWidth
import UiMarkup.Console.Lines
import UiMarkup.Console.Shortcode
import UiMarkup.Console.Table
import UiMarkup.Console.Tag
import UiMarkup.Console.Tree
import UiMarkup.Console.Wrap
import UiMarkup.Data.Datum
import UiMarkup.Data.Json
import UiMarkup.Data.JsonText
import UiMarkup.Data.Toml.Document
import UiMarkup.Data.Toml.Moment
import UiMarkup.Data.Toml.Text
import UiMarkup.Data.Toml.Value
import UiMarkup.Document.Basic
import UiMarkup.Document.ThemeFile
import UiMarkup.Expr.Binding
import UiMarkup.Expr.Error
import UiMarkup.Expr.Lexer
import UiMarkup.Expr.Parser
import UiMarkup.Expr.Syntax
import UiMarkup.Expr.Token
import UiMarkup.Layout.Constraints
import UiMarkup.Layout.Keyword
import UiMarkup.Layout.Length
import UiMarkup.Lint.Check
import UiMarkup.Lint.DocumentRules
import UiMarkup.Lint.Finding
import UiMarkup.Lint.ThemeRules
import UiMarkup.Lint.WidgetRules
import UiMarkup.Main
import UiMarkup.Markup.Element
import UiMarkup.Markup.Tag
import UiMarkup.Number.Binary64
import UiMarkup.Number.Decimal
import UiMarkup.Number.Literal
import UiMarkup.Number.Rounding
import UiMarkup.OrderedMap
import UiMarkup.ParseError
import UiMarkup.Proofs.DistinctKeys
import UiMarkup.Proofs.Document.Definitions
import UiMarkup.Proofs.Document.Ends
import UiMarkup.Proofs.Document.Provenance
import UiMarkup.Proofs.Document.Reading
import UiMarkup.Proofs.Document.ThemeView
import UiMarkup.Proofs.Expr.Completeness
import UiMarkup.Proofs.Expr.Composition
import UiMarkup.Proofs.Expr.Cursor
import UiMarkup.Proofs.Expr.CursorParse
import UiMarkup.Proofs.Expr.ErrorOffsets
import UiMarkup.Proofs.Expr.Grammar
import UiMarkup.Proofs.Expr.Lexemes
import UiMarkup.Proofs.Expr.Parse
import UiMarkup.Proofs.Expr.PathRoots
import UiMarkup.Proofs.Expr.Rendering
import UiMarkup.Proofs.Expr.RoundTrip
import UiMarkup.Proofs.Expr.Soundness
import UiMarkup.Proofs.Expr.Spelling
import UiMarkup.Proofs.Expr.Tokens
import UiMarkup.Proofs.Lineage.Faults
import UiMarkup.Proofs.Lineage.FirstFault
import UiMarkup.Proofs.Lineage.Graph
import UiMarkup.Proofs.Lineage.History
import UiMarkup.Proofs.Lineage.Idempotence
import UiMarkup.Proofs.Lineage.Locality
import UiMarkup.Proofs.Lineage.Resolution
import UiMarkup.Proofs.Lineage.Soundness
import UiMarkup.Proofs.Lineage.Steps
import UiMarkup.Proofs.Lineage.Success
import UiMarkup.Proofs.Lineage.Termination
import UiMarkup.Proofs.Lineage.Visit
import UiMarkup.Proofs.Lint.BreakpointValues
import UiMarkup.Proofs.Lint.EventAttributes
import UiMarkup.Proofs.Lint.Findings
import UiMarkup.Proofs.Lint.Inheritance
import UiMarkup.Proofs.Lint.Report
import UiMarkup.Proofs.Lint.ShownLines
import UiMarkup.Proofs.Lint.StateAttributes
import UiMarkup.Proofs.Markup.Extents
import UiMarkup.Proofs.Markup.Nesting
import UiMarkup.Proofs.Markup.StartTags
import UiMarkup.Proofs.Markup.Writing
import UiMarkup.Proofs.Number.Comparison
import UiMarkup.Proofs.Number.Margins
import UiMarkup.Proofs.Number.Whole
import UiMarkup.Proofs.Source.Lines
import UiMarkup.Proofs.Source.Merging
import UiMarkup.Proofs.Source.Offsets
import UiMarkup.Proofs.Source.Positions
import UiMarkup.Proofs.Spelling.Candidates
import UiMarkup.Proofs.Spelling.EditDistance
import UiMarkup.Proofs.Style.GradientText
import UiMarkup.Proofs.Text.Utf8
import UiMarkup.Proofs.Theme.ClassAttributes
import UiMarkup.Proofs.Theme.ClassLocality
import UiMarkup.Proofs.Theme.ClassPrecedence
import UiMarkup.Proofs.Theme.ClassValidity
import UiMarkup.Proofs.Theme.FontSizes
import UiMarkup.Proofs.Theme.Idempotence
import UiMarkup.Proofs.Theme.InsertionOrder
import UiMarkup.Proofs.Theme.NumberRanges
import UiMarkup.Proofs.Theme.StateSelectors
import UiMarkup.Proofs.Theme.ThemePrecedence
import UiMarkup.Proofs.Theme.Validity
import UiMarkup.Proofs.Value.Arguments
import UiMarkup.Proofs.Widget.Attributes
import UiMarkup.Proofs.Widget.Classification
import UiMarkup.Proofs.Widget.ErrorSpans
import UiMarkup.Proofs.Widget.EventParameters
import UiMarkup.Proofs.Widget.KeptAttributes
import UiMarkup.Proofs.Widget.Look
import UiMarkup.Proofs.Widget.Placement
import UiMarkup.Proofs.Widget.Routing
import UiMarkup.Proofs.Widget.Segments
import UiMarkup.Proofs.Widget.Spans
import UiMarkup.Proofs.Widget.Table
import UiMarkup.Proofs.Widget.VersionText
import UiMarkup.Proofs.Xml.Cells
import UiMarkup.Proofs.Xml.Content
import UiMarkup.Proofs.Xml.Insets
import UiMarkup.Proofs.Xml.Prolog
import UiMarkup.Proofs.Xml.Tokens
import UiMarkup.Report
import UiMarkup.Source.Map
import UiMarkup.Source.Span
import UiMarkup.Spelling
import UiMarkup.Style.Background
import UiMarkup.Style.Border
import UiMarkup.Style.Color
import UiMarkup.Style.ColorName
import UiMarkup.Style.Effect
import UiMarkup.Style.Gradient
import UiMarkup.Style.Properties
import UiMarkup.Text.CodeSet
import UiMarkup.Text.Digit
import UiMarkup.Text.Letter
import UiMarkup.Text.LowerCase
import UiMarkup.Text.Printable
import UiMarkup.Text.Split
import UiMarkup.Text.Utf8
import UiMarkup.Theme.Error
import UiMarkup.Theme.Lineage
import UiMarkup.Theme.Markup
import UiMarkup.Theme.Palette
import UiMarkup.Theme.State
import UiMarkup.Theme.StyleClass
import UiMarkup.Theme.Theme
import UiMarkup.Theme.Typography
import UiMarkup.Value.Fault
import UiMarkup.Value.Scalar
import UiMarkup.Widget.AttributeName
import UiMarkup.Widget.Builder
import UiMarkup.Widget.Event
import UiMarkup.Widget.Kind
import UiMarkup.Widget.Node
import UiMarkup.Widget.Requirement
import UiMarkup.Widget.Schema
import UiMarkup.Widget.Value
import UiMarkup.Widget.VersionText
import UiMarkup.Workspace.Discovery
import UiMarkup.Workspace.Files
import UiMarkup.Workspace.Path
import UiMarkup.Workspace.Pattern
import UiMarkup.Workspace.Settings
import UiMarkup.Xml.Content
import UiMarkup.Xml.Declaration
import UiMarkup.Xml.Document
import UiMarkup.Xml.Encoding
import UiMarkup.Xml.Entity
import UiMarkup.Xml.Fault
import UiMarkup.Xml.Name
import UiMarkup.Xml.Position
import UiMarkup.Xml.Prolog
import UiMarkup.Xml.PrologToken
import UiMarkup.Xml.Scan
