import LoadProbe.Player
import LoadProbe.Rehearsal.Starts

/-!
# A model of a loaded server

A gateway for rehearsals of whole scenarios: a run takes longer the more runs are alive when it
starts. Beyond its capacity the server refuses runs, or lets them end with a status of its own. A
run is alive until the first pull that reports something else than `Running`.
-/

namespace LoadProbe.Rehearsal

open Facade Feed Pass

/-- What the server does with a run beyond its capacity. -/
inductive Beyond where
  /-- It refuses to start the run. -/
  | refuse
  /-- It starts the run and lets it end with this lifecycle text. -/
  | endWith (text : String)
deriving DecidableEq, Repr

/-- The properties of the server, times in milliseconds. -/
structure ServerModel where
  base : Nat
  /-- The time that each run that is alive adds to a run. -/
  perRun : Nat
  capacity : Nat
  beyond : Beyond
  /-- A feed item appears every so often; 0 is never. -/
  feedPeriod : Nat
  pullDelay : Nat

/-- A run on the server. -/
structure ServedRun where
  started : Nat
  finish : Nat
  /-- The run was beyond the capacity. -/
  excess : Bool
  stopped : Bool
  alive : Bool

/-- The runs of the server, in the order of their ids from 1 on, and what it has counted. -/
structure ServerState where
  runs : Array ServedRun
  alive : Nat
  plays : Starts
  pulls : Nat
  stops : Nat

namespace ServerModel

/-- The server before any command. -/
def idle : ServerState := ⟨#[], 0, .none, 0, 0⟩

/-- The place of a run among the runs of the server. -/
def place (runId : Int) : Nat := (runId - 1).toNat

/-- The answer to a play command. -/
def answerPlay (m : ServerModel) (now : Nat) (s : ServerState) : ServerState × PlayAnswer :=
  let s := { s with plays := s.plays.note now }
  let load := s.alive + 1
  let excess := decide (m.capacity < load)
  if excess && m.beyond == .refuse then (s, .refused "server full")
  else
    let run : ServedRun := ⟨now, now + m.base + m.perRun * load, excess, false, true⟩
    let runs := s.runs.push run
    ({ s with runs := runs, alive := load }, .started runs.size)

/-- The lifecycle text of a run at a time. -/
def statusAt (m : ServerModel) (now : Nat) (run : ServedRun) : String :=
  if run.stopped then "CancelExit"
  else if now < run.finish then "Running"
  else match run.excess, m.beyond with
    | true, .endWith text => text
    | _, _ => "NormalExit"

/-- How many feed items a run has produced by a time. -/
def itemsAt (m : ServerModel) (now : Nat) (run : ServedRun) : Int :=
  if m.feedPeriod = 0 then 0 else ((now - run.started) / m.feedPeriod : Nat)

/-- The answer to a pull command. -/
def answerPull (m : ServerModel) (now : Nat) (runId : Int) (s : ServerState) :
    ServerState × Returns :=
  let s := { s with pulls := s.pulls + 1 }
  match s.runs[place runId]? with
  | none => (s, .none)
  | some run =>
    let status := m.statusAt now run
    let slices := Table.empty.insert .trades ⟨some (m.itemsAt now run), []⟩
    let returns : Returns := ⟨some status, slices⟩
    if run.alive && status != "Running" then
      let runs := s.runs.modify (place runId) fun r => { r with alive := false }
      ({ s with runs := runs, alive := s.alive - 1 }, returns)
    else (s, returns)

/-- The answer to a stop command. -/
def answerStop (runId : Int) (s : ServerState) : ServerState :=
  let runs := s.runs.modify (place runId) fun r => { r with stopped := true }
  { s with runs := runs, stops := s.stops + 1 }

/-- The server as the runs see it. -/
def gateway (m : ServerModel) : Gateway ServerState where
  playDelay := 0
  pullDelay := m.pullDelay
  stopDelay := 0
  playArrives _ s := s
  answerPlay now s :=
    let (s, answer) := m.answerPlay now s
    (s, .ok answer)
  pullArrives _ _ s := s
  answerPull now request s :=
    let (s, returns) := m.answerPull now request.runId s
    (s, .ok returns)
  stopArrives _ _ s := s
  answerStop _ runId s := (answerStop runId s, .ok ())

/-- Steps that are enough for `count` runs. Each ends at most one poll after its finish, or, when
its lifecycle text is no end, after the watchdog has stopped it. -/
def patience (p : Player) (m : ServerModel) (s : ServerState) (count : Nat) : Nat :=
  let finish := m.base + m.perRun * (s.alive + count)
  let longest := max finish (p.deadline + p.timing.watchdogInterval)
  let poll := max 1 (min p.timing.idleDelay p.timing.activeDelay)
  let polls := longest / poll + 3
  let looks := (longest + p.timing.idleDelay + 2 * m.pullDelay) / max 1 p.timing.watchdogInterval
  count * (2 * polls + looks + 12)

/-- The launcher of the runs of a player against the server. -/
def launcher (p : Player) (m : ServerModel) : Launcher (Timeline ServerState Task) :=
  (p.machine m.gateway).launcher (patience p m)

end ServerModel

end LoadProbe.Rehearsal
