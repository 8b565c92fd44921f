import LoadProbe.Pass.Controller

/-!
# Making a pass

A launcher is whatever starts runs: alone, for the baseline, or many at once, for a pass. Its
state is the world that the runs act on. What happens while the runs of a pass are in flight comes
out as a list of events in the order of time, so the collector sees the outcomes in the order in
which the runs finished, and every run that was started ends in one of them (`Launcher.complete`).
`run` drives the passes of a scenario over a launcher.
-/

namespace LoadProbe.Pass

/-- Something that happens while runs are in flight. -/
inductive Event where
  /-- A run reports something. -/
  | report (n : Notice)
  /-- A run is over. -/
  | ended (fate : Fate)

/-- How the runs ended that are over after these events, in the order of time. -/
def fates (events : List Event) : List Fate :=
  events.filterMap fun
    | .ended fate => some fate
    | .report _ => none

theorem fates_append (events later : List Event) :
    fates (events ++ later) = fates events ++ fates later :=
  List.filterMap_append

theorem length_fates_crashes (count : Nat) :
    (fates (.replicate count (.ended .crash))).length = count := by
  induction count with
  | zero => rfl
  | succ count ih => exact congrArg Nat.succ ih

/-- What starts runs in a world `σ`. -/
structure Launcher (σ : Type) where
  /-- Starts one run and waits for its end. -/
  single : σ → σ × List Notice × Fate
  /-- Starts so many runs at once and waits until all of them are over. -/
  together : σ → Nat → σ × List Event
  complete : ∀ w count, (fates (together w count).2).length = count

/-- The cells of a pass after its events, and what was said meanwhile. A run that crashed
delivers nothing. -/
def deliver (t : Terms) : Tally → List Event → Tally × List Notice
  | s, [] => (s, [])
  | s, .report n :: rest =>
    let (s, later) := deliver t s rest
    (s, n :: later)
  | s, .ended .crash :: rest => deliver t s rest
  | s, .ended (.outcome o) :: rest =>
    let (s, _, said) := s.accept t o
    let (s, later) := deliver t s rest
    (s, said ++ later)

/-- Runs so many executors at once and waits for the verdict. A number that is not positive starts
no run. Once all runs are over and no verdict was sent, there will be none. -/
def pass {σ : Type} (l : Launcher σ) (s : Settings) (threshold : Float) (w : σ) (executors : Int) :
    σ × Verdict × List Notice :=
  if executors ≤ 0 then (w, .noRuns, [.passEmpty executors])
  else
    let count := executors.toNat
    let (w, events) := l.together w count
    let (tally, said) := deliver ⟨threshold, count, s.success⟩ .start events
    match tally.verdict? with
    | some v => (w, v, .passStarted count :: said)
    | none => (w, .noRuns, .passStarted count :: (said ++ [.passWithoutVerdict count]))

/-- Makes passes until the budget is spent, and finds the best passing number of executors.
`baseline` is the time of a single run on an idle server. -/
def run {σ : Type} (l : Launcher σ) (s : Settings) (w : σ) (baseline : Float) :
    σ × Best × List Notice :=
  let threshold := baseline * s.overtime
  let (w, last, said) := converge s (pass l s threshold) w (.initial s.initial)
  (w, last.best, said)

end LoadProbe.Pass
