import TextMode.Argument
import TextMode.CommandLine.Arguments
import TextMode.CommandLine.Command
import TextMode.CommandLine.Console
import TextMode.CommandLine.Help
import TextMode.CommandLine.Report
import TextMode.CommandLine.Run
import TextMode.CommandLine.Switch
import TextMode.CommandLine.Table
import TextMode.Content.Piece
import TextMode.Content.Segment
import TextMode.Content.Splitter
import TextMode.Context
import TextMode.Dimension.Ems
import TextMode.Dimension.Literal
import TextMode.Entries
import TextMode.Error
import TextMode.Expansion.Body
import TextMode.Expansion.Call
import TextMode.Expansion.Join
import TextMode.Json.Reader
import TextMode.Json.Value
import TextMode.Log.Event
import TextMode.Log.Level
import TextMode.Log.Trace
import TextMode.Main
import TextMode.Markup.Node
import TextMode.Markup.SExpression
import TextMode.Notation.Element
import TextMode.Notation.Item
import TextMode.Notation.Reader
import TextMode.Notation.Token
import TextMode.Number.Binary64
import TextMode.Number.Rendering
import TextMode.Settings.Number
import TextMode.Settings.Path
import TextMode.Settings.Session
import TextMode.Settings.Source
import TextMode.Settings.Validation
import TextMode.Settings.VariableFile
import TextMode.Text.Blank
import TextMode.Text.Decimal
import TextMode.Text.DecimalDigit
import TextMode.Text.Printable
import TextMode.Text.Quoted
import TextMode.Proofs.Content.Grammar
import TextMode.Proofs.Content.Splitting
import TextMode.Proofs.Notation.Items
import TextMode.Proofs.Content.Balance
import TextMode.Proofs.Notation.Lexing
import TextMode.Proofs.Notation.Depth
import TextMode.Proofs.Notation.Failures
import TextMode.Proofs.Notation.Nesting
import TextMode.Proofs.Notation.Braces
import TextMode.Proofs.Content.Surroundings
import TextMode.Proofs.Outline.Syntax
import TextMode.Proofs.Outline.Reading
import TextMode.Proofs.Document.Cutting
import TextMode.Proofs.Document.Reading
import TextMode.Proofs.Document.RoundTrip
import TextMode.Proofs.Expansion.Body
import TextMode.Proofs.Expansion.Outcome
import TextMode.Proofs.Expansion.Tokens
import TextMode.Proofs.Expansion.Preservation
import TextMode.Proofs.Outline.Scope
import TextMode.Proofs.Notation.Islands
import TextMode.Proofs.Markup.Decoding
import TextMode.Proofs.Dimension.Numerals
import TextMode.Proofs.Dimension.Ems
import TextMode.Proofs.Dimension.Literals
import TextMode.Proofs.Settings.Session
import TextMode.Proofs.Settings.Soundness
import TextMode.Proofs.Dimension.Rendering
import TextMode.Proofs.CommandLine.Dimensions
import TextMode.Proofs.Markup.Lines
import TextMode.Proofs.Notation.Reports
import TextMode.Proofs.CommandLine.Reporting
import TextMode.Proofs.Notation.Diagnosis
import TextMode.Proofs.Notation.Division
import TextMode.Proofs.Notation.Flattening
import TextMode.Proofs.Notation.TextBoxes
import TextMode.Proofs.Notation.Positions
import TextMode.Proofs.Content.Composition
import TextMode.Proofs.Dimension.Sequences
import TextMode.Proofs.Dimension.Formatting
import TextMode.Proofs.Dimension.Precision
import TextMode.Proofs.Argument.Trimming
import TextMode.Proofs.Expansion.Joining
import TextMode.Proofs.Expansion.Quoting
import TextMode.Proofs.Notation.Recursion
import TextMode.Proofs.Context.Derivations
import TextMode.Proofs.Error.Templates
import TextMode.Proofs.Content.Accounting
import TextMode.Proofs.Expansion.LastWord
import TextMode.Proofs.Text.EdgeSpaces
import TextMode.Proofs.Argument.Alignment
