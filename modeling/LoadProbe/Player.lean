import LoadProbe.Clock
import LoadProbe.Facade.Reply
import LoadProbe.Facade.Retry
import LoadProbe.Scenario

/-!
# Playing a run

A run is driven from its submission to a terminal status by one task, with a watchdog beside it:

* the strategy is submitted until the transport gets it through; an answer without a run id ends
  the run;
* the feeds are pulled page by page, the next pull following after a short delay when a channel
  advanced and after a longer one when nothing changed;
* after a normal exit one last pull fetches everything that is left.

The watchdog compares the time of the run with the deadline when the run id is known and then at
fixed intervals, and once the run is overdue starts a task of its own that asks the server to stop
it. It never ends the run itself: the next pull reports whatever exit the server chose.

`Task` is where each of these tasks stands between two steps, and `Player.step` its step. The
server is a `Gateway`: what it notes when a command arrives, how long it takes, and what it
answers then.
-/

namespace LoadProbe

open Facade Feed Pass

/-- The delays of the pulls and of the watchdog, in milliseconds, and the page length. -/
structure Timing where
  /-- The delay before the next pull when no channel advanced. -/
  idleDelay : Nat
  /-- The delay before the next pull when a channel advanced. -/
  activeDelay : Nat
  watchdogInterval : Nat
  pageSize : Int

/-- Pulls follow after 5 s or 1 s, and the watchdog looks every 5 s. -/
def Timing.standard : Timing := ⟨5000, 1000, 5000, defaultPageSize⟩

/-- A server as a world `ω`: each command first arrives, and is answered after its delay. Times
are given in milliseconds. -/
structure Gateway (ω : Type) where
  playDelay : Nat
  pullDelay : Nat
  stopDelay : Nat
  playArrives : Nat → ω → ω
  answerPlay : Nat → ω → ω × Except Failure PlayAnswer
  pullArrives : Nat → Request → ω → ω
  answerPull : Nat → Request → ω → ω × Except Failure Returns
  stopArrives : Nat → Int → ω → ω
  answerStop : Nat → Int → ω → ω × Except Failure Unit

/-- The settings of the runs of a scenario. -/
structure Player where
  /-- The time of a run after which it is asked to stop; 0 disables this. -/
  deadline : Nat
  /-- The last pull also asks for the grids. -/
  grids : Bool
  timing : Timing
  retry : Policy

/-- A player that retries forever, with the standard delays. -/
def Player.standard (deadline : Nat) (grids : Bool) : Player :=
  ⟨deadline, grids, .standard, .forever⟩

/-- The player of the runs of a scenario. -/
def Scenario.player (s : Scenario) : Player :=
  .standard s.timeout s.grids

/-- What a pull is for. -/
inductive PullKind where
  /-- To follow a run that may be alive. -/
  | poll
  /-- To fetch what is left after a normal exit. -/
  | drain
deriving DecidableEq, Repr

/-- A run that the server has accepted: when it was first submitted, and its id. -/
structure Accepted where
  started : Nat
  runId : Int
deriving DecidableEq, Repr

/-- Where a task of a run stands between two steps. Attempts are counted from 1. -/
inductive Task where
  /-- The run begins. -/
  | begin
  /-- The strategy is about to be submitted. -/
  | submit (started : Nat) (attempt : UInt32)
  | submitted (started : Nat) (attempt : UInt32)
  /-- A pull is about to be sent. -/
  | pull (run : Accepted) (kind : PullKind) (request : Request) (attempt : UInt32)
  | pulled (run : Accepted) (kind : PullKind) (request : Request) (attempt : UInt32)
  /-- The watchdog is about to compare the time of the run with the deadline. -/
  | watch (run : Accepted)
  /-- A stop is about to be sent. -/
  | stop (runId : Int) (attempt : UInt32)
  | stopping (runId : Int) (attempt : UInt32)

/-- A stop goes on after its run has ended; every other task ends with it. -/
def Task.bound : Task → Bool
  | stop _ _ => false
  | stopping _ _ => false
  | _ => true

namespace Player

variable {ω : Type}

/-- A step that says nothing and starts nothing. -/
def quietly (w : ω) (next : Next Task) : Move ω Task := ⟨w, [], [], next⟩

/-- The end of a run with a status. -/
def finish (now started : Nat) (status : RunStatus) : Next Task :=
  .endRun (.outcome (.ofMillis status (now - started)))

/-- The tasks that watch over an accepted run. -/
def watchers (p : Player) (run : Accepted) : List Task :=
  if p.deadline = 0 then [] else [.watch run]

/-- What follows the answer to a submission. -/
def afterSubmission (p : Player) (now started : Nat) (attempt : UInt32) (w : ω) :
    Except Failure PlayAnswer → Move ω Task
  | .ok (.started runId) =>
    let run : Accepted := ⟨started, runId⟩
    ⟨w, [.runStarted runId], p.watchers run,
      .pause 0 (.pull run .poll (.initial runId p.timing.pageSize) 1)⟩
  | .ok (.refused reason) => ⟨w, [.runRefused reason], [], finish now started .error⟩
  | .error e =>
    match p.retry.after .transport attempt e with
    | .again next => quietly w (.giveWay (.submit started next))
    | .giveUp => ⟨w, [.submissionFailed e], [], finish now started .error⟩
    | .overflow => quietly w (.endRun .crash)

/-- What follows the results of a poll. -/
def afterPoll (p : Player) (now : Nat) (run : Accepted) (request : Request) (returns : Returns)
    (w : ω) : Move ω Task :=
  match returns.lifecycle.terminal? with
  | some .success =>
    quietly w (.pause 0 (.pull run .drain (request.drain returns p.grids) 1))
  | some status =>
    ⟨w, [.runInterrupted request.runId returns.lifecycle], [], finish now run.started status⟩
  | none =>
    let next := request.next returns
    let delay := if next = request then p.timing.idleDelay else p.timing.activeDelay
    quietly w (.pause delay (.pull run .poll next 1))

/-- What follows the answer to a pull. A drain ends the run as a success, whatever it brings. -/
def afterPull (p : Player) (now : Nat) (run : Accepted) (kind : PullKind) (request : Request)
    (attempt : UInt32) (w : ω) : Except Failure Returns → Move ω Task
  | .ok returns =>
    match kind with
    | .poll => p.afterPoll now run request returns w
    | .drain => quietly w (finish now run.started .success)
  | .error e =>
    match p.retry.after .transport attempt e with
    | .again next => quietly w (.giveWay (.pull run kind request next))
    | .giveUp =>
      match kind with
      | .poll => ⟨w, [.pullFailed request.runId e], [], finish now run.started .error⟩
      | .drain =>
        ⟨w, [.pullFailed request.runId e, .finalPullFailed run.runId], [],
          finish now run.started .success⟩
    | .overflow => quietly w (.endRun .crash)

/-- What follows the answer to a stop. -/
def afterStop (p : Player) (runId : Int) (attempt : UInt32) (w : ω) :
    Except Failure Unit → Move ω Task
  | .ok () => quietly w .endTask
  | .error e =>
    match p.retry.after .transport attempt e with
    | .again next => quietly w (.giveWay (.stop runId next))
    | .giveUp => ⟨w, [.stopFailed runId e], [], .endTask⟩
    | .overflow => quietly w .endTask

/-- The step of a task of a run. -/
def step (p : Player) (g : Gateway ω) (now : Nat) (w : ω) : Task → Move ω Task
  | .begin => quietly w (.pause 0 (.submit now 1))
  | .submit started attempt =>
    quietly (g.playArrives now w) (.pause g.playDelay (.submitted started attempt))
  | .submitted started attempt =>
    let (w, answer) := g.answerPlay now w
    p.afterSubmission now started attempt w answer
  | .pull run kind request attempt =>
    quietly (g.pullArrives now request w) (.pause g.pullDelay (.pulled run kind request attempt))
  | .pulled run kind request attempt =>
    let (w, answer) := g.answerPull now request w
    p.afterPull now run kind request attempt w answer
  | .watch run =>
    if p.deadline < now - run.started then
      ⟨w, [.runOverDeadline run.runId], [.stop run.runId 1], .endTask⟩
    else quietly w (.pause p.timing.watchdogInterval (.watch run))
  | .stop runId attempt =>
    quietly (g.stopArrives now runId w) (.pause g.stopDelay (.stopping runId attempt))
  | .stopping runId attempt =>
    let (w, answer) := g.answerStop now runId w
    p.afterStop runId attempt w answer

/-- The runs of a player over a server. -/
def machine (p : Player) (g : Gateway ω) : Machine ω Task where
  first := .begin
  step := p.step g
  bound := Task.bound

end Player

end LoadProbe
