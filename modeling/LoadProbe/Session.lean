import LoadProbe.Log.Filter
import LoadProbe.Pass.Launcher
import LoadProbe.Plan.Listing
import LoadProbe.Plan.Loading

/-!
# Sessions

A session carries out a plan: the plan is loaded and its scenarios are listed, the server is made
to stop whatever still runs there, and the scenarios are run one after the other. Their reports
come last. A session ends early when the plan cannot be loaded, when a strategy is missing, and
when the server was not cleaned in time.
-/

namespace LoadProbe

open Pass

/-- How a session ended. -/
inductive SessionEnd where
  | completed
  | notLoaded (e : LoadFailure)
  | notListed (e : MissingStrategy)
  /-- The server was not cleaned within so many seconds. -/
  | notCleaned (limit : Nat)
  /-- The tester died with a trial of a baseline. -/
  | crashed
deriving DecidableEq, Repr

namespace SessionEnd

/-- The exit code of the program. -/
def exitCode : SessionEnd → Nat
  | completed => 0
  | crashed => 101
  | _ => 1

/-- The first line of what is reported as an error. -/
def errorLine? : SessionEnd → Option String
  | notLoaded _ => some "Error: Failed to load configuration"
  | notListed _ => some "Error: Failed to build scenarios"
  | notCleaned limit => some ("Error: " ++ Notice.notCleaned limit)
  | completed => none
  | crashed => none

end SessionEnd

/-- A server as a session sees it, over a world `σ`. -/
structure Site (σ : Type) where
  /-- Has everything stopped that still runs, within so many seconds; the answer says whether the
  server accepted this in time. -/
  clean : Nat → σ → σ × Bool
  /-- Starts the runs of a scenario. -/
  launcher : Scenario → Launcher σ

/-- A server that no connection reaches. -/
def Site.unreachable : Site Unit where
  clean _ w := (w, false)
  launcher _ := {
    single := fun w => (w, [], .crash)
    together := fun w count => (w, .replicate count (.ended .crash))
    complete := fun _ count => length_fates_crashes count }

/-- What came of a session. -/
structure SessionResult (σ : Type) where
  world : σ
  ending : SessionEnd
  said : List Notice

namespace Session

variable {σ : Type}

/-- Runs scenarios one after the other. There are no reports when the tester died. -/
def runAll (site : Site σ) : List Scenario → σ → σ × Option (List (String × Report)) × List Notice
  | [], w => (w, some [], [])
  | s :: rest, w =>
    match s.run (site.launcher s) w with
    | (w, none, said) => (w, none, said)
    | (w, some report, said) =>
      let (w, reports, later) := runAll site rest w
      (w, reports.map ((s.name, report) :: ·), said ++ later)

/-- The last line about a scenario. -/
def reportNotice : String × Report → Notice
  | (name, .baselineFailed) => .reported name Report.baselineFailed.text true
  | (name, .finished best) => .reported name (Report.finished best).text false

/-- What is said until the server has been cleaned. The line about a command that is sent again
and again stands for all of them. -/
def cleaningLines : List Notice :=
  [.cleaningStarted, .commandSent Facade.Command.stopAll.name]

/-- Cleans the server and runs scenarios. -/
def carryOut (site : Site σ) (cleaning : Nat) (scenarios : List Scenario) (w : σ) :
    SessionResult σ :=
  match site.clean cleaning w with
  | (w, false) => ⟨w, .notCleaned cleaning, cleaningLines ++ [.cleaningTimedOut cleaning]⟩
  | (w, true) =>
    match runAll site scenarios w with
    | (w, none, said) => ⟨w, .crashed, cleaningLines ++ .cleaned :: said⟩
    | (w, some reports, said) =>
      ⟨w, .completed, cleaningLines ++ .cleaned ::
        (said ++ .scenariosFinished :: reports.map reportNotice)⟩

/-- The session of the plan at a path; `site` is the server that the plan names. -/
def run (files : Files) (path : String) (cleaning : Nat) (site : Plan → Site σ) (w : σ) :
    SessionResult σ :=
  match Plan.load files path with
  | .error e => ⟨w, .notLoaded e, [.sessionStarted]⟩
  | .ok p =>
    let opening := [.sessionStarted, .planLoaded p.url p.account.username]
    match p.scenarios files (Path.parent path) with
    | (.error e, said) => ⟨w, .notListed e, opening ++ said⟩
    | (.ok scenarios, said) =>
      let r := carryOut (site p) cleaning scenarios w
      { r with said := opening ++ said ++ .scenariosListed scenarios.length :: r.said }

end Session

end LoadProbe
