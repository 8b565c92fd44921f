import LoadProbe.Baseline
import LoadProbe.Facade.Command

/-!
# Scenarios

A scenario says how to start a strategy, how long a run may take, how the baseline is measured and
what steers the passes. To run it is to measure the baseline and then to make passes; without a
baseline no pass is made.
-/

namespace LoadProbe

open Facade Pass

/-- Everything that is needed to stress the server with one strategy. -/
structure Scenario where
  name : String
  params : PlayParams
  /-- The time in milliseconds after which a run is asked to stop; 0 never stops runs. -/
  timeout : Nat
  /-- How many runs the baseline is measured over. -/
  trials : Nat
  /-- The last pull of a run also asks for the grids. -/
  grids : Bool
  settings : Settings

/-- The result of a scenario. -/
inductive Report where
  /-- No baseline could be measured, and no pass was made. -/
  | baselineFailed
  /-- The best passing number of executors and the average time of its runs. -/
  | finished (best : Best)

namespace Report

/-- The part of a finished report that stands before the average time. -/
def beforeAverage (executors : Int) : String :=
  s!"number of strategies ran: {executors}, average time taken for each run: "

def text : Report → String
  | baselineFailed => "failed to determine single strategy speed"
  | finished best =>
    beforeAverage best.executors ++ figures.render best.average ++ " milliseconds"

end Report

namespace Scenario

/-- A scenario in one line. -/
def text (s : Scenario) : String :=
  let language := s.params.language
  let first := s.params.startDate
  let last := s.params.endDate
  let timeout := s.timeout
  let trials := s.trials
  let initial := s.settings.initial
  let upper := s.settings.upper
  s.name ++ " [" ++ language ++ s!" {first}..{last}, timeout {timeout} ms, " ++
    s!"{trials} speed test runs, initial {initial} executors, upper bound {upper}]"

/-- Runs a scenario in the world `w`; there is no report when the tester crashed with a trial of
the baseline. -/
def run {σ : Type} (s : Scenario) (l : Launcher σ) (w : σ) : σ × Option Report × List Notice :=
  let opening := [.scenarioStarted s.text, .baselineStarted]
  match Baseline.measure l s.trials w with
  | (w, .crashed, said) => (w, none, opening ++ said)
  | (w, .failed, said) =>
    (w, some .baselineFailed, opening ++ said ++ [.baselineFailed s.text])
  | (w, .mean baseline, said) =>
    let (w, best, later) := Pass.run l s.settings w baseline
    let report := Report.finished best
    (w, some report, opening ++ said ++ .baselineTook baseline :: later ++
      [.scenarioFinished s.name report.text])

end Scenario

end LoadProbe
