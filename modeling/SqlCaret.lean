import SqlCaret.Command
import SqlCaret.Command.Arguments
import SqlCaret.Command.Program
import SqlCaret.Config
import SqlCaret.Config.File
import SqlCaret.Document
import SqlCaret.Files
import SqlCaret.Files.Expand
import SqlCaret.Json
import SqlCaret.Json.Fields
import SqlCaret.Json.Read
import SqlCaret.Json.Write
import SqlCaret.LineIndex
import SqlCaret.Locate
import SqlCaret.Main
import SqlCaret.Point
import SqlCaret.Proofs.Command.Agreement
import SqlCaret.Proofs.Command.Outlined
import SqlCaret.Proofs.Config.Saved
import SqlCaret.Proofs.Config.Separator
import SqlCaret.Proofs.Document.Clamped
import SqlCaret.Proofs.Document.Coordinates
import SqlCaret.Proofs.Document.Edited
import SqlCaret.Proofs.Document.Reachable
import SqlCaret.Proofs.Document.Selected
import SqlCaret.Proofs.Json.Fields
import SqlCaret.Proofs.Outline.Bounds
import SqlCaret.Proofs.Outline.Depth
import SqlCaret.Proofs.Outline.Extents
import SqlCaret.Proofs.Outline.Form
import SqlCaret.Proofs.Outline.Line
import SqlCaret.Proofs.Outline.Lockstep
import SqlCaret.Proofs.Outline.Parentheses
import SqlCaret.Proofs.Outline.Parts
import SqlCaret.Proofs.Outline.Passing
import SqlCaret.Proofs.Outline.Resembles
import SqlCaret.Proofs.Outline.Separators
import SqlCaret.Proofs.Outline.Whole
import SqlCaret.Proofs.Parse.Alike
import SqlCaret.Proofs.Parse.Bounds
import SqlCaret.Proofs.Parse.Clean
import SqlCaret.Proofs.Parse.Complete
import SqlCaret.Proofs.Parse.Errors
import SqlCaret.Proofs.Parse.Joined
import SqlCaret.Proofs.Parse.Lossless
import SqlCaret.Proofs.Parse.Separators
import SqlCaret.Proofs.Parse.Split
import SqlCaret.Proofs.Printed.Ahead
import SqlCaret.Proofs.Printed.Batches
import SqlCaret.Proofs.Printed.Layout
import SqlCaret.Proofs.Printed.Lexed
import SqlCaret.Proofs.Printed.Parsed
import SqlCaret.Proofs.Printed.Read
import SqlCaret.Proofs.Printed.Rules
import SqlCaret.Proofs.Printed.Statements
import SqlCaret.Proofs.Printed.Woven
import SqlCaret.Proofs.Recorder.Draft
import SqlCaret.Proofs.Recorder.Markers
import SqlCaret.Proofs.Recorder.Traceless
import SqlCaret.Proofs.Session.Course
import SqlCaret.Proofs.Session.Executed
import SqlCaret.Proofs.Session.Orderly
import SqlCaret.Proofs.Session.Restored
import SqlCaret.Proofs.Statement.Beside
import SqlCaret.Proofs.Statement.Checks
import SqlCaret.Proofs.Statement.Exact
import SqlCaret.Proofs.Statement.Fits
import SqlCaret.Proofs.Statement.Line
import SqlCaret.Proofs.Statement.Locate
import SqlCaret.Proofs.Statement.Moved
import SqlCaret.Proofs.Statement.OfTree
import SqlCaret.Proofs.Statement.Parsed
import SqlCaret.Proofs.Statement.Placed
import SqlCaret.Proofs.Statement.Postorder
import SqlCaret.Proofs.Statement.Reached
import SqlCaret.Proofs.Statement.Routes
import SqlCaret.Proofs.Statement.Scopes
import SqlCaret.Proofs.Statement.Turns
import SqlCaret.Proofs.Statement.Valid
import SqlCaret.Proofs.Statement.Walk
import SqlCaret.Proofs.Syntax.Alike
import SqlCaret.Proofs.Syntax.Apart
import SqlCaret.Proofs.Syntax.Case
import SqlCaret.Proofs.Syntax.Cut
import SqlCaret.Proofs.Syntax.Delimited
import SqlCaret.Proofs.Syntax.Tokens
import SqlCaret.Proofs.Syntax.Words
import SqlCaret.Proofs.Text.Boundaries
import SqlCaret.Proofs.Text.Case
import SqlCaret.Proofs.Text.Cut
import SqlCaret.Proofs.Text.Decoded
import SqlCaret.Proofs.Text.Joined
import SqlCaret.Proofs.Text.Lines
import SqlCaret.Proofs.Text.Points
import SqlCaret.Proofs.Text.Starts
import SqlCaret.Proofs.Tree.Balanced
import SqlCaret.Proofs.Tree.Bare
import SqlCaret.Proofs.Tree.Beside
import SqlCaret.Proofs.Tree.Branches
import SqlCaret.Proofs.Tree.Form
import SqlCaret.Proofs.Tree.Inside
import SqlCaret.Proofs.Tree.Recorded
import SqlCaret.Proofs.Tree.Rows
import SqlCaret.Proofs.Tree.Sites
import SqlCaret.Proofs.Tree.Stretches
import SqlCaret.Proofs.Tree.Whole
import SqlCaret.Proofs.Tree.Woven
import SqlCaret.Scope
import SqlCaret.Selection
import SqlCaret.Session
import SqlCaret.Session.Host
import SqlCaret.Session.Scheduled
import SqlCaret.Span
import SqlCaret.Statement
import SqlCaret.Statement.OfTree
import SqlCaret.Statement.Parsed
import SqlCaret.Statement.Report
import SqlCaret.Statement.Validate
import SqlCaret.Statement.Walk
import SqlCaret.Syntax.Boundary
import SqlCaret.Syntax.Cursor
import SqlCaret.Syntax.Cursor.Token
import SqlCaret.Syntax.Event
import SqlCaret.Syntax.Keyword
import SqlCaret.Syntax.Kind
import SqlCaret.Syntax.Mark
import SqlCaret.Syntax.Outline
import SqlCaret.Syntax.Outline.Compound
import SqlCaret.Syntax.Outline.Nesting
import SqlCaret.Syntax.Outline.Script
import SqlCaret.Syntax.Outline.Simple
import SqlCaret.Syntax.Parse
import SqlCaret.Syntax.Problem
import SqlCaret.Syntax.Recorder
import SqlCaret.Syntax.Token
import SqlCaret.Syntax.Token.Delimited
import SqlCaret.Syntax.Token.Scan
import SqlCaret.Syntax.Tree
import SqlCaret.Syntax.Tree.OfEvents
import SqlCaret.Syntax.Tree.Row
import SqlCaret.Text.Alphanumeric
import SqlCaret.Text.Blank
import SqlCaret.Text.CodeRanges
import SqlCaret.Text.Hidden
import SqlCaret.Text.Letters
import SqlCaret.Text.Line
import SqlCaret.Text.Quoted
import SqlCaret.Text.Utf8
import SqlCaret.Toml
import SqlCaret.Toml.Magnitude
import SqlCaret.Toml.Quoted
import SqlCaret.Toml.Read
import SqlCaret.Toml.Scalar
