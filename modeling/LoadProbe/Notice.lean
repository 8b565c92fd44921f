import LoadProbe.Facade.Failure
import LoadProbe.Number.Layout
import LoadProbe.Run.Outcome

/-!
# What the tester says while it works

Every line that the tester logs is a value of `Notice` first: which event it reports, and the
figures of that event. `Notice.level` and `Notice.text` hold the wording of all of them.
-/

namespace LoadProbe

open Facade Number

/-- How much a log line matters. -/
inductive Level where
  | debug
  | info
  | warn
  | error
deriving DecidableEq, Repr

def Level.text : Level → String
  | debug => "DEBUG"
  | info => "INFO"
  | warn => "WARN"
  | error => "ERROR"

/-- How figures are written in log lines and reports: always with the point in place, a tie
between two shortest decimals going away from zero. -/
def figures : Layout where
  inPlace _ := true
  pointZero := false
  tie := .away
  notANumber := "NaN"
  infinity := "inf"
  negativeInfinity := "-inf"

/-- An event that the tester reports. -/
inductive Notice where
  -- the collector of a pass
  | runCanceled (millis : UInt64)
  | runFailed (millis : UInt64)
  | runOverdue (threshold : Float) (millis : UInt64)
  | runNormal (millis : UInt64)
  | surplusResult (expected : Nat)
  | verdictDropped
  -- the passes of a scenario
  | passEmpty (executors : Int)
  | passStarted (executors : Nat)
  | passWithoutVerdict (executors : Nat)
  | passFinished (executors : Int)
  | passGrew (executors next : Int) (average : Float)
  | passShrank (executors next : Int) (average : Float)
  -- the baseline
  | noTrials
  | trialFailed (trial : Nat) (status : RunStatus) (millis : UInt64)
  | trialTook (trial trials : Nat) (millis : UInt64)
  -- a scenario
  | scenarioStarted (scenario : String)
  | baselineStarted
  | baselineFailed (scenario : String)
  | baselineTook (millis : Float)
  | scenarioFinished (name report : String)
  -- a run
  | runStarted (runId : Int)
  | runRefused (reason : String)
  | submissionFailed (e : Failure)
  | runInterrupted (runId : Int) (lifecycle : Lifecycle)
  | pullFailed (runId : Int) (e : Failure)
  | finalPullFailed (runId : Int)
  | runOverDeadline (runId : Int)
  | stopFailed (runId : Int) (e : Failure)
  -- the settings file
  | scenarioSkipped (title path reason : String)
  -- the client of the facade
  | commandSent (command : String)
  | pullRejected (reply : String)
  -- a session
  | sessionStarted
  | planLoaded (url username : String)
  | scenariosListed (count : Nat)
  | cleaningStarted
  | cleaned
  | cleaningTimedOut (seconds : Nat)
  | scenariosFinished
  | reported (name report : String) (failed : Bool)

namespace Notice

def level : Notice → Level
  | surplusResult _ | verdictDropped => .warn
  | passEmpty _ => .warn
  | passWithoutVerdict _ => .error
  | noTrials | trialFailed _ _ _ => .warn
  | baselineFailed _ => .error
  | submissionFailed _ | pullFailed _ _ | finalPullFailed _ | runOverDeadline _
  | stopFailed _ _ => .warn
  | scenarioSkipped _ _ _ => .warn
  | commandSent _ => .debug
  | pullRejected _ => .error
  | cleaningTimedOut _ => .error
  | reported _ _ failed => if failed then .error else .info
  | _ => .info

/-- A span of whole seconds. -/
def seconds (n : Nat) : String :=
  if n = 0 then "0ns" else s!"{n}s"

/-- What is said when the server could not be cleaned in time. -/
def notCleaned (limit : Nat) : String :=
  "Unable to clean environment within " ++ seconds limit

/-- The wording of a notice. -/
def text : Notice → String
  | runCanceled ms => s!"Strategy execution canceled, running time is: {ms}"
  | runFailed ms => s!"Strategy execution error, running time is: {ms}"
  | runOverdue threshold ms =>
    "Strategy execution normally exited but overdue. Threshold is: " ++ figures.render threshold ++
      s!", running time is: {ms}"
  | runNormal ms => s!"Strategy execution normally exited, running time is: {ms}"
  | surplusResult expected =>
    s!"Ignoring run result beyond the {expected} expected in this pass"
  | verdictDropped => "Pass verdict dropped: nobody is waiting for it"
  | passEmpty k => s!"Pass with {k} executors cannot start any run, counting it as failed"
  | passStarted k => s!"Starting pass with {k} executors"
  | passWithoutVerdict k => s!"Pass of {k} executors ended without a verdict"
  | passFinished k => s!"Pass finished, number of executors={k}"
  | passGrew k next average =>
    s!"Pass success, grow number of executors from {k} to {next}. Average time: " ++
      figures.render average
  | passShrank k next average =>
    s!"Pass failed, shrink number of executors from {k} to {next}. Average time: " ++
      figures.render average
  | noTrials => "No speed test runs configured"
  | trialFailed trial status ms =>
    s!"Speed test run {trial} ended with status " ++ status.text ++ s!" after {ms} ms"
  | trialTook trial trials ms => s!"Speed test run {trial}/{trials} took {ms} ms"
  | scenarioStarted scenario => "Running scenario: " ++ scenario
  | baselineStarted => "Determining single strategy average execution..."
  | baselineFailed scenario =>
    "Failed to determine the initial speed of the strategy, stop scenario: " ++ scenario
  | baselineTook millis =>
    "Single strategy average execution time is: " ++ figures.render millis ++ " milliseconds"
  | scenarioFinished name report => "Scenario <" ++ name ++ "> finished: " ++ report
  | runStarted id => s!"Successfully started strategy with run-id={id}"
  | runRefused reason => "Error running strategy: " ++ reason
  | submissionFailed e => "Giving up submitting strategy: " ++ e.message
  | runInterrupted id lifecycle =>
    s!"Execution of run-id <{id}> interrupted due to: " ++ lifecycle.text
  | pullFailed id e => s!"Pull for run-id <{id}> failed: " ++ e.message
  | finalPullFailed id => s!"Final pull for run-id <{id}> failed"
  | runOverDeadline id => s!"Strategy run-id={id} runs over hard deadline, canceling..."
  | stopFailed id e => s!"Failed to stop run-id={id}: " ++ e.message
  | scenarioSkipped title path reason =>
    "Skipping scenario '" ++ title ++ "': cannot read strategy " ++ path ++ ": " ++ reason
  | commandSent command => "-> " ++ command
  | pullRejected reply => "Error getting results from server: " ++ reply
  | sessionStarted => "Starting Stress Tester"
  | planLoaded url username => "Loaded configuration: server=" ++ url ++ ", username=" ++ username
  | scenariosListed count => s!"{count} scenario(s) enabled"
  | cleaningStarted => "Cleaning environment"
  | cleaned => "Environment cleaned"
  | cleaningTimedOut limit => notCleaned limit
  | scenariosFinished => "All scenarios finished"
  | reported name report _ => "  - " ++ name ++ ": " ++ report

/-- The log line of a notice: its level and its wording. -/
def line (n : Notice) : String :=
  n.level.text ++ " " ++ n.text

end Notice

end LoadProbe
