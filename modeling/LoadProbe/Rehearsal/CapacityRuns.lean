import LoadProbe.Clock
import LoadProbe.Rehearsal.Starts

/-!
# Runs on a server of limited capacity

A launcher for rehearsals: a run takes longer the more runs are in flight when it begins, and is
canceled when they are more than the server can hold.
-/

namespace LoadProbe.Rehearsal

open Pass

/-- A server of limited capacity, and the runs that are in flight on it. -/
structure CapacityRuns where
  capacity : Nat
  /-- The time that every run takes, in milliseconds. -/
  base : Nat
  /-- The time that each run in flight adds. -/
  perRun : Nat
  inFlight : Nat
  starts : Starts

namespace CapacityRuns

/-- Where a run stands. -/
inductive Stage where
  | begin
  /-- The run is in flight, one of so many when it began. -/
  | flying (load : Nat)

/-- How long a run takes that is one of `load` when it begins. -/
def duration (w : CapacityRuns) (load : Nat) : Nat :=
  w.base + w.perRun * load

/-- The outcome of a run that is one of `load` when it begins. -/
def outcome (w : CapacityRuns) (load : Nat) : Outcome :=
  .ofMillis (if w.capacity < load then .canceled else .success) (w.duration load)

/-- The step of a run. -/
def step (now : Nat) (w : CapacityRuns) : Stage → Move CapacityRuns Stage
  | .begin =>
    let load := w.inFlight + 1
    let w := { w with inFlight := load, starts := w.starts.note now }
    ⟨w, [], [], .pause (w.duration load) (.flying load)⟩
  | .flying load =>
    ⟨{ w with inFlight := w.inFlight - 1 }, [], [], .endRun (.outcome (w.outcome load))⟩

def machine : Machine CapacityRuns Stage where
  first := .begin
  step := step
  bound _ := true

/-- The launcher of runs on a server of limited capacity; each run makes two steps. -/
def launcher : Launcher (Timeline CapacityRuns Stage) :=
  machine.launcher fun _ count => 2 * count + 1

end CapacityRuns

end LoadProbe.Rehearsal
