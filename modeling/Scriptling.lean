import Scriptling.Bindings
import Scriptling.CommandLine
import Scriptling.Console
import Scriptling.Editor.Document
import Scriptling.Editor.Edit
import Scriptling.Editor.Index
import Scriptling.Evaluation
import Scriptling.Fault
import Scriptling.Files
import Scriptling.Frame
import Scriptling.Frame.Command
import Scriptling.Grammar.Expression
import Scriptling.Grammar.Parser
import Scriptling.Grammar.Program
import Scriptling.Grammar.Statement
import Scriptling.Host
import Scriptling.Launch
import Scriptling.Main
import Scriptling.Number.Binary
import Scriptling.Number.Layout
import Scriptling.Number.Shortest
import Scriptling.Prelude
import Scriptling.Proofs.Grammar.Acceptance
import Scriptling.Proofs.Grammar.Completeness
import Scriptling.Proofs.Grammar.Nearest
import Scriptling.Proofs.Grammar.Outcome
import Scriptling.Proofs.Grammar.Regular
import Scriptling.Proofs.Grammar.RoundTrip
import Scriptling.Proofs.Grammar.Rules
import Scriptling.Proofs.Grammar.Soundness
import Scriptling.Proofs.Grammar.Writing
import Scriptling.Proofs.Run.Agreement
import Scriptling.Proofs.Run.Calls
import Scriptling.Proofs.Run.Lexical
import Scriptling.Proofs.Run.Meets
import Scriptling.Proofs.Run.Natives
import Scriptling.Proofs.Run.Places
import Scriptling.Proofs.Run.Programs
import Scriptling.Proofs.Run.Runs
import Scriptling.Proofs.Run.Safety
import Scriptling.Proofs.Run.Sessions
import Scriptling.Proofs.Run.Simulation
import Scriptling.Proofs.Run.Watched
import Scriptling.Proofs.Scope.Errors
import Scriptling.Proofs.Scope.Labels
import Scriptling.Proofs.Scope.Likeness
import Scriptling.Proofs.Scope.Concur
import Scriptling.Proofs.Scope.Scoped
import Scriptling.Proofs.Scope.Visits
import Scriptling.Proofs.Source.Tiling
import Scriptling.Report
import Scriptling.Scope
import Scriptling.Scope.Resolution
import Scriptling.Session
import Scriptling.Source.Lexed
import Scriptling.Source.Piece
import Scriptling.Text.Alphanumeric
import Scriptling.Text.Blank
import Scriptling.Text.Digit
import Scriptling.Text.Line
import Scriptling.Text.Quoted
import Scriptling.Text.Ranges
import Scriptling.Token
import Scriptling.Tree
import Scriptling.Tree.Label
import Scriptling.Value
import Scriptling.Value.Operator
import Scriptling.World
import Scriptling.Proofs.Run.Alike
import Scriptling.Proofs.Run.InStep
import Scriptling.Proofs.Grammar.Locality
import Scriptling.Proofs.Grammar.Lookahead
import Scriptling.Proofs.Grammar.Recovery
import Scriptling.Proofs.Grammar.Composition
import Scriptling.Proofs.Run.Sources
import Scriptling.Proofs.Run.Rejected
import Scriptling.Proofs.Source.Joined
import Scriptling.Proofs.Source.Rendering
import Scriptling.Proofs.Run.Lowered
import Scriptling.Proofs.Run.Joined
import Scriptling.Proofs.Run.Keeps
import Scriptling.Proofs.Run.Inside
import Scriptling.Proofs.Run.Globals
import Scriptling.Proofs.Editor.StaticErrors
import Scriptling.Proofs.Editor.Documents
import Scriptling.Proofs.Editor.Nesting
import Scriptling.Proofs.Scope.Landmarks
import Scriptling.Proofs.Scope.Rules
import Scriptling.Proofs.Launch.ExitCodes
import Scriptling.Proofs.Source.Lines
import Scriptling.Proofs.Editor.Declared
import Scriptling.Proofs.Editor.Introduced
import Scriptling.Proofs.Grammar.Cursor
import Scriptling.Proofs.Grammar.InBounds
import Scriptling.Proofs.Run.Direct
import Scriptling.Proofs.Grammar.Adjacent
import Scriptling.Proofs.Editor.Lines
import Scriptling.Proofs.Source.Names
import Scriptling.Proofs.Editor.Hover
import Scriptling.Proofs.Editor.Columns
import Scriptling.Proofs.Grammar.Origins
import Scriptling.Proofs.Scope.Blame
import Scriptling.Proofs.Editor.Diagnostics
import Scriptling.Proofs.Frame.Changes
import Scriptling.Proofs.Frame.Stack
import Scriptling.Proofs.Scope.Walker
import Scriptling.Proofs.Grammar.Leftmost
