import Transcript.Buffer
import Transcript.Command
import Transcript.Command.Input
import Transcript.CommandLine.Arguments
import Transcript.CommandLine.Plan
import Transcript.Console
import Transcript.Decimal
import Transcript.Evaluator
import Transcript.Ex.Line
import Transcript.Ex.Run
import Transcript.Expr
import Transcript.Expr.Eval
import Transcript.Expr.Parser
import Transcript.History
import Transcript.Host
import Transcript.Main
import Transcript.Mark
import Transcript.Navigation
import Transcript.Output
import Transcript.Proofs.Buffer.Bounds
import Transcript.Proofs.Buffer.Entries
import Transcript.Proofs.Buffer.Insertion
import Transcript.Proofs.Buffer.Numbering
import Transcript.Proofs.Buffer.Report
import Transcript.Proofs.Buffer.Survivors
import Transcript.Proofs.Buffer.Tail
import Transcript.Proofs.Command.Input
import Transcript.Proofs.Completion
import Transcript.Proofs.Console.Actions
import Transcript.Proofs.Console.Ending
import Transcript.Proofs.Console.Feeding
import Transcript.Proofs.Console.Record
import Transcript.Proofs.Console.Recording
import Transcript.Proofs.Console.Run
import Transcript.Proofs.Console.Shown
import Transcript.Proofs.Console.Typing
import Transcript.Proofs.Evaluator
import Transcript.Proofs.Ex.Bars
import Transcript.Proofs.Ex.Comments
import Transcript.Proofs.Expr.Grouping
import Transcript.Proofs.Expr.Locality
import Transcript.Proofs.Expr.Printing
import Transcript.Proofs.Expr.Progress
import Transcript.Proofs.Expr.Reading
import Transcript.Proofs.Expr.RoundTrip
import Transcript.Proofs.History
import Transcript.Proofs.Host
import Transcript.Proofs.Host.Current
import Transcript.Proofs.Host.Windows
import Transcript.Proofs.Inspecting
import Transcript.Proofs.Naming
import Transcript.Proofs.Navigation
import Transcript.Proofs.Navigation.Counting
import Transcript.Proofs.Navigation.Tiling
import Transcript.Proofs.Output
import Transcript.Proofs.Output.Chunks
import Transcript.Proofs.Registry
import Transcript.Proofs.Registry.Reaping
import Transcript.Proofs.Script.Joining
import Transcript.Proofs.Script.Reading
import Transcript.Proofs.Script.Running
import Transcript.Proofs.Script.Stepwise
import Transcript.Proofs.Session.Alike
import Transcript.Proofs.Session.Bounds
import Transcript.Proofs.Session.Breaking
import Transcript.Proofs.Session.Changes
import Transcript.Proofs.Session.Closed
import Transcript.Proofs.Session.Completing
import Transcript.Proofs.Session.Completing.OneShot
import Transcript.Proofs.Session.Dispatch
import Transcript.Proofs.Session.Effect
import Transcript.Proofs.Session.Lived
import Transcript.Proofs.Session.Numbering
import Transcript.Proofs.Session.OneShot
import Transcript.Proofs.Session.Operation
import Transcript.Proofs.Session.Recall
import Transcript.Proofs.Session.Refusals
import Transcript.Proofs.Session.Resubmission
import Transcript.Proofs.Session.Retyping
import Transcript.Proofs.Session.Stale
import Transcript.Proofs.Session.Standing
import Transcript.Proofs.Session.Statements
import Transcript.Proofs.Session.Submission
import Transcript.Proofs.Session.Turns
import Transcript.Proofs.Session.Visit
import Transcript.Proofs.Session.Watching
import Transcript.Proofs.Settings.Document
import Transcript.Proofs.Statement
import Transcript.Proofs.Statement.Insertion
import Transcript.Proofs.Statement.Partition
import Transcript.Proofs.Text
import Transcript.Proofs.Token.Joining
import Transcript.Proofs.Token.Lines
import Transcript.Proofs.Token.Pieces
import Transcript.Proofs.Token.Words
import Transcript.Proofs.Token.Written
import Transcript.Proofs.Toml.Document
import Transcript.Proofs.Toml.Number
import Transcript.Proofs.Toml.Text
import Transcript.Registry
import Transcript.Script.Program
import Transcript.Script.Run
import Transcript.Session
import Transcript.Session.Completing
import Transcript.Session.Editing
import Transcript.Settings
import Transcript.Settings.Document
import Transcript.Statement
import Transcript.Table
import Transcript.Text
import Transcript.Text.Class
import Transcript.Text.Cluster
import Transcript.Token
import Transcript.Token.Scan
import Transcript.Toml
import Transcript.Toml.Document
import Transcript.Toml.Number
import Transcript.Toml.Text
import Transcript.Toml.Value
import Transcript.Value
import Transcript.Word
