import LoadProbe.Files
import LoadProbe.Plan.Basic
import LoadProbe.Scenario

/-!
# The scenarios of a plan

The enabled entries of a plan become its scenarios, in the order of the plan, each with the code in
its strategy file. A strategy is looked for at its path as given, and then at its path as seen from
the directory of the plan. If there is nothing at either, the plan has no scenarios at all; if
there is something that cannot be read, just that entry is left out.
-/

namespace LoadProbe

open Facade

/-- The language that a strategy is written in, which the end of its path shows. -/
def languageOf (strategy : String) : String :=
  if "py".toList.isSuffixOf strategy.toList then "python" else "java"

/-- The file of a strategy: its path and what is there. -/
def locate? (files : Files) (directory strategy : String) : Option (String × Content) :=
  let beside := Path.within directory strategy
  match files strategy, files beside with
  | some found, _ => some (strategy, found)
  | none, some found => some (beside, found)
  | none, none => none

/-- No file was found at the path of a strategy. -/
structure MissingStrategy where
  path : String
deriving DecidableEq, Repr

def MissingStrategy.message (m : MissingStrategy) : String :=
  "Unable to find strategy file: " ++ m.path

namespace Plan

/-- What the runs of an entry are started with. -/
def playParams (p : Plan) (e : PlanEntry) (code : String) : PlayParams where
  code := code
  owner := p.account.username
  title := e.title
  timeUnit := e.bar.unit
  language := languageOf e.strategy
  startDate := e.startDate
  endDate := e.endDate
  initialCash := e.initialCash
  runType := "backtest"
  portfolioName := some "p"
  benchmarkName := some "b"

/-- The scenario of an entry whose strategy has this code. -/
def scenario (p : Plan) (e : PlanEntry) (code : String) : Scenario where
  name := e.title
  params := p.playParams e code
  timeout := e.timeout
  trials := e.trials
  grids := e.grids
  settings := p.settings

/-- The scenarios of some entries of a plan, and what was said while they were looked up. Entries
after one whose strategy is missing are not looked at. -/
def listFrom (p : Plan) (files : Files) (directory : String) :
    List PlanEntry → Except MissingStrategy (List Scenario) × List Notice
  | [] => (.ok [], [])
  | e :: rest =>
    if e.enabled then
      match locate? files directory e.strategy with
      | none => (.error ⟨e.strategy⟩, [])
      | some (_, .text code) =>
        let (scenarios, said) := listFrom p files directory rest
        (scenarios.map (p.scenario e code :: ·), said)
      | some (path, .unreadable reason) =>
        let (scenarios, said) := listFrom p files directory rest
        (scenarios, .scenarioSkipped e.title path reason :: said)
    else listFrom p files directory rest

/-- The scenarios of a plan that lies in a directory. -/
def scenarios (p : Plan) (files : Files) (directory : String) :
    Except MissingStrategy (List Scenario) × List Notice :=
  p.listFrom files directory p.entries

end Plan

end LoadProbe
