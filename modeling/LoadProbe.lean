import LoadProbe.Baseline
import LoadProbe.Clock
import LoadProbe.Facade.Client
import LoadProbe.Facade.Command
import LoadProbe.Facade.Failure
import LoadProbe.Facade.Reply
import LoadProbe.Facade.Retry
import LoadProbe.Feed.Channel
import LoadProbe.Feed.Request
import LoadProbe.Feed.Returns
import LoadProbe.Files
import LoadProbe.Invocation
import LoadProbe.Json.Printer
import LoadProbe.Json.Reader
import LoadProbe.Json.Value
import LoadProbe.Log.Directive
import LoadProbe.Log.Filter
import LoadProbe.Log.Line
import LoadProbe.Log.Pattern
import LoadProbe.Main
import LoadProbe.Notice
import LoadProbe.Number.Exact
import LoadProbe.Number.Layout
import LoadProbe.Number.Literal
import LoadProbe.Number.Scaled
import LoadProbe.Number.Shortest
import LoadProbe.Number.Word
import LoadProbe.Pass.Collector
import LoadProbe.Pass.Controller
import LoadProbe.Pass.Launcher
import LoadProbe.Plan.Basic
import LoadProbe.Plan.Fault
import LoadProbe.Plan.Listing
import LoadProbe.Plan.Loading
import LoadProbe.Plan.Reader
import LoadProbe.Player
import LoadProbe.Proofs.Number.Arithmetic
import LoadProbe.Proofs.Number.Double
import LoadProbe.Proofs.Number.Rounding
import LoadProbe.Proofs.Pass.History
import LoadProbe.Rehearsal.CapacityRuns
import LoadProbe.Rehearsal.FileTree
import LoadProbe.Rehearsal.ModelServer
import LoadProbe.Rehearsal.RepliedServer
import LoadProbe.Rehearsal.ScriptedRuns
import LoadProbe.Rehearsal.ScriptedServer
import LoadProbe.Rehearsal.Starts
import LoadProbe.Run.Lifecycle
import LoadProbe.Run.Outcome
import LoadProbe.Scenario
import LoadProbe.Session
import LoadProbe.Text.Alphanumeric
import LoadProbe.Text.Space
import LoadProbe.Yaml.Lexer
import LoadProbe.Yaml.Node
import LoadProbe.Yaml.Scalar.Block
import LoadProbe.Yaml.Scalar.Fold
import LoadProbe.Yaml.Scalar.Plain
import LoadProbe.Yaml.Scalar.Quoted
import LoadProbe.Yaml.Spot
import LoadProbe.Yaml.Tag
import LoadProbe.Yaml.Token
import LoadProbe.Yaml.Typed
import LoadProbe.Proofs.Pass.Budget
import LoadProbe.Proofs.Pass.Capacity
import LoadProbe.Proofs.Pass.Interleaving
import LoadProbe.Proofs.Pass.Best
import LoadProbe.Proofs.Report
import LoadProbe.Proofs.Pass.Optimum
import LoadProbe.Proofs.Number.Negation
import LoadProbe.Proofs.Pass.Ceiling
import LoadProbe.Proofs.Clock.Thread
import LoadProbe.Proofs.Clock.Progress
import LoadProbe.Proofs.Facade.Retry
import LoadProbe.Proofs.Feed.Request
import LoadProbe.Proofs.Play.Script
import LoadProbe.Proofs.Play.Stage
import LoadProbe.Proofs.Play.Completion
import LoadProbe.Proofs.Play.Ledger
import LoadProbe.Proofs.Play.Exact
import LoadProbe.Proofs.Facade.Reply
import LoadProbe.Proofs.Pass.Modes
import LoadProbe.Proofs.Pass.Shrinking
import LoadProbe.Proofs.Pass.Tour
import LoadProbe.Proofs.Pass.Standstill
import LoadProbe.Proofs.Pass.Words
import LoadProbe.Proofs.Play.Asked
import LoadProbe.Proofs.Play.Delayed
import LoadProbe.Proofs.Clock.Agenda
import LoadProbe.Proofs.Play.Watchdog
import LoadProbe.Proofs.Facade.Acceptance
import LoadProbe.Proofs.Facade.Attempts
import LoadProbe.Proofs.Clock.Turns
import LoadProbe.Proofs.Play.Standing
import LoadProbe.Proofs.Play.Reissue
import LoadProbe.Proofs.Play.Silence
import LoadProbe.Proofs.Pass.Surplus
import LoadProbe.Proofs.Facade.LastAttempt
import LoadProbe.Proofs.Feed.Separation
import LoadProbe.Proofs.Baseline
import LoadProbe.Proofs.Json.Printing
import LoadProbe.Proofs.Facade.RequestText
import LoadProbe.Proofs.Run.Lifecycle
import LoadProbe.Proofs.Plan.Listing
import LoadProbe.Proofs.Facade.Endless
import LoadProbe.Proofs.Number.Decimal
import LoadProbe.Proofs.Number.Shortest
import LoadProbe.Proofs.Json.Numerals
import LoadProbe.Proofs.Json.Reading
import LoadProbe.Proofs.Facade.PlayText
