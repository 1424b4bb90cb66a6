import Calculator.Binary64.Arithmetic
import Calculator.Binary64.Basic
import Calculator.Binary64.Checked
import Calculator.Binary64.Estimate
import Calculator.Binary64.Integral
import Calculator.Binary64.Logarithm
import Calculator.Binary64.Power
import Calculator.Binary64.Rounding
import Calculator.Binary64.Trigonometry
import Calculator.Builtin.Basic
import Calculator.Builtin.Random
import Calculator.Builtin.Signature
import Calculator.Builtin.Standard
import Calculator.CommandLine.Arguments
import Calculator.CommandLine.Calculate
import Calculator.CommandLine.Folder
import Calculator.CommandLine.Output
import Calculator.CommandLine.SourceFile
import Calculator.CommandLine.TokenListing
import Calculator.Console.Highlight
import Calculator.Console.History
import Calculator.Console.Theme
import Calculator.Console.Window
import Calculator.Decimal.Layout
import Calculator.Decimal.Shortest
import Calculator.Evaluation.Error
import Calculator.Evaluation.Expression
import Calculator.Evaluation.FrameLimit
import Calculator.Evaluation.Interpreter
import Calculator.Evaluation.Statement
import Calculator.Main
import Calculator.Session.Basic
import Calculator.Session.Clause
import Calculator.Session.Environment
import Calculator.Session.ResultCache
import Calculator.Shell
import Calculator.Statement.Basic
import Calculator.Statement.Reader
import Calculator.Statement.SyntaxError
import Calculator.Table
import Calculator.Text.Blank
import Calculator.Text.DecimalDigit
import Calculator.Text.Integer
import Calculator.Text.Lines
import Calculator.Text.Printable
import Calculator.Text.Quoted
import Calculator.Token.Basic
import Calculator.Token.Cursor
import Calculator.Token.Scan
import Calculator.Token.Source
import Calculator.Token.Span
import Calculator.Proofs.Evaluation.Atomicity
import Calculator.Proofs.Evaluation.Effects
import Calculator.Proofs.Evaluation.Run
import Calculator.Proofs.Session.Key
import Calculator.Proofs.Session.Permanence
import Calculator.Proofs.Evaluation.Afresh
import Calculator.Proofs.Frames
import Calculator.Proofs.Evaluation.Arithmetic
import Calculator.Proofs.Session.Selection
import Calculator.Proofs.Evaluation.Calls
import Calculator.Proofs.Evaluation.Stability
import Calculator.Proofs.Evaluation.Memoisation
import Calculator.Proofs.Evaluation.Transparency
import Calculator.Proofs.Statement.Grammar
import Calculator.Proofs.Statement.Unambiguity
import Calculator.Proofs.Token.Scan
import Calculator.Proofs.Statement.Terminals
import Calculator.Proofs.Statement.Soundness
import Calculator.Proofs.Statement.Completeness
import Calculator.Proofs.Statement.Depth
import Calculator.Proofs.Statement.Recognition
import Calculator.Proofs.Evaluation.Dispatch
import Calculator.Proofs.Statement.Locality
import Calculator.Proofs.Statement.Appearance
import Calculator.Proofs.Evaluation.Limit
import Calculator.Proofs.Statement.Blame
import Calculator.Proofs.Evaluation.Completions
import Calculator.Proofs.Session.Freshness
import Calculator.Proofs.Evaluation.Agreement
import Calculator.Proofs.Evaluation.Errors
import Calculator.Proofs.Token.Munch
import Calculator.Proofs.Token.Separation
import Calculator.Proofs.Evaluation.Visibility
import Calculator.Proofs.Evaluation.Recording
import Calculator.Proofs.Evaluation.Invocations
import Calculator.Proofs.Shell.Loop
import Calculator.Proofs.Text.Lines
import Calculator.Proofs.Binary64.Rounding
import Calculator.Proofs.Decimal.Shortest
import Calculator.Proofs.Decimal.Layout
import Calculator.Proofs.Decimal.RoundTrip
import Calculator.Proofs.Session.Precedence
import Calculator.Proofs.Statement.Marks
import Calculator.Proofs.Console.Reset
import Calculator.Proofs.CommandLine.Flags
import Calculator.Proofs.CommandLine.Modes
import Calculator.Proofs.Evaluation.Hiding
import Calculator.Proofs.CommandLine.Words
import Calculator.Proofs.Statement.Displacement
import Calculator.Proofs.Statement.Composition
import Calculator.Proofs.Decimal.Canonical
import Calculator.Proofs.Statement.Parameters
import Calculator.Proofs.Evaluation.Echo
import Calculator.Proofs.Token.Cursor
import Calculator.Proofs.Console.Navigation
import Calculator.Proofs.Session.Edits
import Calculator.Proofs.Session.Binding
import Calculator.Proofs.Binary64.Value
import Calculator.Proofs.Binary64.HalfUp
import Calculator.Proofs.Evaluation.Names
