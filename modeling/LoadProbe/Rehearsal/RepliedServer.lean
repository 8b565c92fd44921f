import LoadProbe.Facade.Client
import LoadProbe.Player
import LoadProbe.Session

/-!
# A server whose replies are given beforehand

A server for rehearsals of whole sessions: each command has a list of HTTP replies, which its
requests get in turn, the last one again and again. It counts the requests of each command. Every
exchange takes the same time, and where the route to the server is cut none arrives.
-/

namespace LoadProbe.Rehearsal

open Facade Feed Pass

/-- The replies of a command, and how many of its requests have arrived. -/
structure Replies where
  script : List Exchange
  arrived : Nat

namespace Replies

/-- The replies of a command before its first request. -/
def ofList (script : List Exchange) : Replies := ⟨script, 0⟩

/-- The reply to the request of an index. -/
def reply (r : Replies) (index : Nat) : Exchange :=
  r.script.getD index (r.script.getLast?.getD .lost)

/-- The index of the next request that is accepted as a stop. -/
def accepting? (r : Replies) : Option Nat :=
  (List.range' r.arrived (r.script.length + 1)).find? fun i => (r.reply i).stop.isOk

end Replies

structure RepliedServer where
  plays : Replies
  pulls : Replies
  stops : Replies
  stopAlls : Replies

namespace RepliedServer

/-- How long an exchange takes, in milliseconds. -/
def delay : Nat := 1

/-- The next reply to a command, which arrives at the server unless the route to it is cut. -/
def ask (route : Route) (r : Replies) : Replies × Exchange :=
  match route with
  | .direct => ({ r with arrived := r.arrived + 1 }, r.reply r.arrived)
  | .cut => (r, .lost)

/-- The server behind a route. -/
def gateway (route : Route) : Gateway RepliedServer where
  playDelay := delay
  pullDelay := delay
  stopDelay := delay
  playArrives _ w := w
  answerPlay _ w :=
    let (plays, reply) := ask route w.plays
    ({ w with plays := plays }, reply.play)
  pullArrives _ _ w := w
  answerPull _ _ w :=
    let (pulls, reply) := ask route w.pulls
    ({ w with pulls := pulls }, reply.pull)
  stopArrives _ _ w := w
  answerStop _ _ w :=
    let (stops, reply) := ask route w.stops
    ({ w with stops := stops }, reply.stop)

/-- Steps that are enough for so many runs that end with the script. -/
def patience (w : RepliedServer) (count : Nat) : Nat :=
  let calls := w.plays.script.length + w.pulls.script.length + w.stops.script.length
  (count + 1) * (4 * calls + 64)

/-- The world of a session: the server on the clock of the runs. -/
abbrev World := Timeline RepliedServer Task

/-- Sends stop-all until it is accepted. -/
def clean (route : Route) (limit : Nat) (t : World) : World × Bool :=
  let stopAlls := t.world.stopAlls
  let after (requests : Nat) : World :=
    { t with
      now := t.now + requests * delay
      world := { t.world with
        stopAlls := { stopAlls with arrived := stopAlls.arrived + requests } } }
  match route with
  | .cut => (t, false)
  | .direct =>
    let inTime := limit * 1000 / delay
    match stopAlls.accepting? with
    | some i =>
      let requests := i + 1 - stopAlls.arrived
      if requests ≤ inTime then (after requests, true) else (after inTime, false)
    | none => (after inTime, false)

/-- The server as a session sees it. -/
def site (route : Route) : Site World where
  clean := clean route
  launcher s := (s.player.machine (gateway route)).launcher patience

/-- A notice with what the client has said before it: a pull that is rejected is reported by the
client as well. -/
def withCause : Notice → List Notice
  | .pullFailed runId (.rejected status reply) =>
    [.pullRejected reply, .pullFailed runId (.rejected status reply)]
  | n => [n]

/-- Rehearses the session of the plan at a path. -/
def rehearse (route : Route) (files : Files) (path : String) (cleaning : Nat)
    (w : RepliedServer) : SessionResult World :=
  let r := Session.run files path cleaning (fun _ => site route) (Timeline.start w)
  { r with said := r.said.flatMap withCause }

end RepliedServer

end LoadProbe.Rehearsal
