import LoadProbe.Player
import LoadProbe.Proofs.Facade.Retry
import LoadProbe.Proofs.Feed.Request
import LoadProbe.Rehearsal.ScriptedServer
import Mathlib.Algebra.BigOperators.Group.List.Basic
import Mathlib.Algebra.GroupWithZero.Nat

/-!
# The course of a run along given answers

A `Script` gives the answer to every call of a run, and `Script.play` is the run over a server that
answers so at once: time passes by the delays between its polls alone. `Script.delayed` is the
server that takes its time. What the run is to do is told without the tasks of the player. A `Poll`
is a pull command, with all its attempts, after which the run goes on, and `Course` the polls that
such answers lead to: each one asks for what follows from the one before. A course ends in one way
at most (`Course.end_unique`).
-/

namespace LoadProbe

open Facade Feed Pass

/-- The answers to the calls of a run, each command's calls counted from 0. The answer to a pull may
depend on what it asks for. -/
structure Script where
  plays : Nat → Except Failure PlayAnswer
  pulls : Nat → Request → Except Failure Returns
  stops : Nat → Except Failure Unit

/-- The calls that a server has seen, each with its time. -/
structure Calls where
  plays : List Nat
  pulls : List (Nat × Request)
  stops : List (Nat × Int)

namespace Script

/-- The server that answers every call at once, as the script says. -/
def gateway (s : Script) : Gateway Calls where
  playDelay := 0
  pullDelay := 0
  stopDelay := 0
  playArrives now w := { w with plays := w.plays ++ [now] }
  answerPlay _ w := (w, s.plays (w.plays.length - 1))
  pullArrives now request w := { w with pulls := w.pulls ++ [(now, request)] }
  answerPull _ request w := (w, s.pulls (w.pulls.length - 1) request)
  stopArrives now runId w := { w with stops := w.stops ++ [(now, runId)] }
  answerStop _ _ w := (w, s.stops (w.stops.length - 1))

/-- The server that answers every call after the delay of its command. -/
def delayed (s : Script) (d : Rehearsal.ScriptedServer.Delays) : Gateway Calls :=
  { s.gateway with
    playDelay := d.play
    pullDelay := d.pull
    stopDelay := d.stop }

/-- A run of a player over the server that answers at once, in at most `fuel` steps of its tasks. -/
def play (s : Script) (p : Player) (fuel : Nat) : Timeline Calls Task × List Event :=
  let m := p.machine s.gateway
  ((Timeline.start ⟨[], [], []⟩).launch m).untilEnded m fuel 1

end Script

/-- The results of the attempts of a pull command, when so many pulls came before it. -/
def pullResultsFrom (pull : Nat → Request → Except Failure Returns) (before : Nat)
    (request : Request) (attempt : Nat) : Except Failure Returns :=
  pull (before + attempt) request

/-- A pull command after which the run goes on: what it asked for, how many attempts it took, and
what it brought. -/
structure Poll where
  request : Request
  attempts : Nat
  returns : Returns

namespace Poll

/-- The delay before the next pull: the longer one when no page moved. -/
def delay (t : Timing) (q : Poll) : Nat :=
  if q.request.Unmoved q.returns then t.idleDelay else t.activeDelay

/-- How many calls some polls took. -/
def calls (polls : List Poll) : Nat :=
  (polls.map attempts).sum

/-- The time that passes by the delays after some polls. -/
def elapsed (t : Timing) (polls : List Poll) : Nat :=
  (polls.map (delay t)).sum

/-- The calls of some polls, the first of which is made at `now`. -/
def log (t : Timing) : Nat → List Poll → List (Nat × Request)
  | _, [] => []
  | now, q :: rest => List.replicate q.attempts (now, q.request) ++ log t (now + q.delay t) rest

variable {t : Timing}

theorem calls_concat (polls : List Poll) (q : Poll) :
    calls (polls ++ [q]) = calls polls + q.attempts := by
  rw [calls, List.map_append, List.sum_append]
  rfl

theorem elapsed_concat (polls : List Poll) (q : Poll) :
    elapsed t (polls ++ [q]) = elapsed t polls + q.delay t := by
  rw [elapsed, List.map_append, List.sum_append]
  rfl

theorem log_concat (now : Nat) (polls : List Poll) (q : Poll) :
    log t now (polls ++ [q]) =
      log t now polls ++ List.replicate q.attempts (now + elapsed t polls, q.request) := by
  induction polls generalizing now with
  | nil => exact List.append_nil _
  | cons x rest ih =>
    simp only [List.cons_append, log, ih, List.append_assoc, elapsed, List.map_cons, List.sum_cons,
      Nat.add_assoc]

theorem length_log (now : Nat) (polls : List Poll) : (log t now polls).length = calls polls := by
  induction polls generalizing now with
  | nil => rfl
  | cons q rest ih =>
    rw [log, List.length_append, List.length_replicate, ih]
    rfl

end Poll

/-! ## Courses -/

/-- The result of a pull command ends the run. -/
def EndsRun (result : Except Failure Returns) : Prop :=
  ∀ returns, result = .ok returns → returns.Exits

section Course

variable {retry : Policy} {size : Int} {pull : Nat → Request → Except Failure Returns} {runId : Int}

/-- The polls of a run so far, and what its next pull asks for. -/
inductive Course (retry : Policy) (size : Int) (pull : Nat → Request → Except Failure Returns)
    (runId : Int) : List Poll → Request → Prop
  | first : Course retry size pull runId [] (.initial runId size)
  | poll {polls : List Poll} {request : Request} {attempts : Nat} {returns : Returns} :
      Course retry size pull runId polls request →
      retry.Ends (pullResultsFrom pull (Poll.calls polls) request) attempts (.ok returns) →
      ¬returns.Exits →
      Course retry size pull runId (polls ++ [⟨request, attempts, returns⟩]) (request.next returns)

namespace Course

variable {polls later : List Poll} {request request' : Request}

/-- Courses of the same length are the same. -/
theorem eq_of_length (h : Course retry size pull runId polls request)
    (h' : Course retry size pull runId later request') (hlength : polls.length = later.length) :
    polls = later ∧ request = request' := by
  induction h generalizing later request' with
  | first =>
    cases h' with
    | first => exact ⟨rfl, rfl⟩
    | poll => simp at hlength
  | poll _ hends _ ih =>
    cases h' with
    | first => simp at hlength
    | poll h' hends' _ =>
      rw [List.length_append, List.length_append] at hlength
      obtain ⟨rfl, rfl⟩ := ih h' (Nat.add_right_cancel hlength)
      obtain ⟨rfl, hreturns⟩ := hends.unique hends'
      cases hreturns
      exact ⟨rfl, rfl⟩

/-- Where a longer course has come by, the run went on. -/
theorem exists_poll (h : Course retry size pull runId polls request) {k : Nat}
    (hk : k < polls.length) : ∃ earlier request attempts returns,
      earlier.length = k ∧ Course retry size pull runId earlier request ∧
      retry.Ends (pullResultsFrom pull (Poll.calls earlier) request) attempts (.ok returns) ∧
      ¬returns.Exits := by
  induction h with
  | first => exact absurd hk (Nat.not_lt_zero k)
  | @poll polls request attempts returns hcourse hends hruns ih =>
    rw [List.length_append, List.length_singleton] at hk
    rcases Nat.lt_succ_iff_lt_or_eq.1 hk with hlt | rfl
    · exact ih hlt
    · exact ⟨polls, request, attempts, returns, rfl, hcourse, hends, hruns⟩

/-- No course goes on past the end of another one. -/
theorem length_le_of_endsRun (h : Course retry size pull runId polls request) {attempts : Nat}
    {result : Except Failure Returns}
    (hends : retry.Ends (pullResultsFrom pull (Poll.calls polls) request) attempts result)
    (hover : EndsRun result) (h' : Course retry size pull runId later request') :
    later.length ≤ polls.length := by
  by_contra hlt
  obtain ⟨earlier, _, _, returns, hlength, hearlier, hends', hruns⟩ :=
    h'.exists_poll (Nat.not_le.1 hlt)
  obtain ⟨rfl, rfl⟩ := hearlier.eq_of_length h hlength
  obtain ⟨-, hresult⟩ := hends'.unique hends
  exact hruns (hover returns hresult.symm)

/-- A course ends in one way at most. -/
theorem end_unique (h : Course retry size pull runId polls request) {attempts attempts' : Nat}
    {result result' : Except Failure Returns}
    (hends : retry.Ends (pullResultsFrom pull (Poll.calls polls) request) attempts result)
    (hover : EndsRun result) (h' : Course retry size pull runId later request')
    (hends' : retry.Ends (pullResultsFrom pull (Poll.calls later) request') attempts' result')
    (hover' : EndsRun result') : polls = later ∧ result = result' := by
  have hlength := Nat.le_antisymm (h'.length_le_of_endsRun hends' hover' h)
    (h.length_le_of_endsRun hends hover h')
  obtain ⟨rfl, rfl⟩ := h.eq_of_length h' hlength
  exact ⟨rfl, (hends.unique hends').2⟩

end Course

end Course

end LoadProbe
