import LoadProbe.Player

/-!
# A server whose answers are given beforehand

A gateway for rehearsals of a single run: the calls of a command take their answers from a list in
turn, and a default once the list is used up. It notes every call with its time. Once a stop was
accepted, all pulls can be made to answer one status.

`ScriptedServer.rehearse` plays one run against it and lets the clock run on for a while after its
end, so that late stops are seen as well.
-/

namespace LoadProbe.Rehearsal

open Facade Feed Pass

/-- The answers of the server that are still to come, and the calls that it has seen, the latest
first. -/
structure ScriptedServer where
  plays : List (Except Failure PlayAnswer)
  pulls : List (Except Failure Returns)
  stops : List (Except Failure Unit)
  /-- The lifecycle text that every pull answers once a stop was accepted. -/
  afterStop : Option String
  stopped : Bool
  playsSeen : List Nat
  pullsSeen : List (Nat × Request)
  stopsSeen : List (Nat × Int)

namespace ScriptedServer

/-- A server that has seen no call yet. -/
def start (plays : List (Except Failure PlayAnswer)) (pulls : List (Except Failure Returns))
    (stops : List (Except Failure Unit)) (afterStop : Option String) : ScriptedServer :=
  ⟨plays, pulls, stops, afterStop, false, [], [], []⟩

/-- The answer to a play call: the next of the script, then a start under run id 1. -/
def answerPlay (w : ScriptedServer) : ScriptedServer × Except Failure PlayAnswer :=
  ({ w with plays := w.plays.tail }, w.plays.headD (.ok (.started 1)))

/-- Results that carry a lifecycle text and nothing else. -/
def statusOnly (text : String) : Returns := { Returns.none with status := some text }

/-- The answer to a pull call: the status after a stop, or the next of the script, then a normal
exit. -/
def answerPull (w : ScriptedServer) : ScriptedServer × Except Failure Returns :=
  match w.stopped, w.afterStop with
  | true, some text => (w, .ok (statusOnly text))
  | _, _ => ({ w with pulls := w.pulls.tail }, w.pulls.headD (.ok (statusOnly "NormalExit")))

/-- The answer to a stop call: the next of the script, then an acceptance. -/
def answerStop (w : ScriptedServer) : ScriptedServer × Except Failure Unit :=
  let answer := w.stops.headD (.ok ())
  let accepted := match answer with
    | .ok _ => true
    | .error _ => false
  ({ w with stops := w.stops.tail, stopped := w.stopped || accepted }, answer)

/-- The delays of the commands, in milliseconds. -/
structure Delays where
  play : Nat
  pull : Nat
  stop : Nat

/-- The server with its delays. -/
def gateway (d : Delays) : Gateway ScriptedServer where
  playDelay := d.play
  pullDelay := d.pull
  stopDelay := d.stop
  playArrives now w := { w with playsSeen := now :: w.playsSeen }
  answerPlay _ w := w.answerPlay
  pullArrives now request w := { w with pullsSeen := (now, request) :: w.pullsSeen }
  answerPull _ _ w := w.answerPull
  stopArrives now runId w := { w with stopsSeen := (now, runId) :: w.stopsSeen }
  answerStop _ _ w := w.answerStop

/-- Steps that are enough for a run that ends with the script: two for each call, and one for
each look of the watchdog. -/
def patience (p : Player) (d : Delays) (w : ScriptedServer) : Nat :=
  let plays := w.plays.length + 1
  let pulls := w.pulls.length + 3
  let stops := w.stops.length + 1
  let time := plays * d.play + pulls * (d.pull + p.timing.idleDelay + p.timing.activeDelay)
  2 * (plays + pulls + stops) + time / max 1 p.timing.watchdogInterval + 10

/-- What came of a rehearsal: the fate of the run, the server after it, and what was said. -/
structure Result where
  fate : Fate
  server : ScriptedServer
  said : List Notice

/-- How long the clock runs on after the end of the run, in milliseconds. -/
def afterglow : Nat := 60000

/-- Plays one run against the server. -/
def rehearse (p : Player) (d : Delays) (w : ScriptedServer) : Result :=
  let m := p.machine (gateway d)
  let fuel := patience p d w
  let (t, events) := ((Timeline.start w).launch m).untilEnded m fuel 1
  let (t, later) := t.untilTime m (t.now + afterglow) fuel
  ⟨fateOf events, t.world, reportsOf events ++ reportsOf later⟩

end ScriptedServer

end LoadProbe.Rehearsal
