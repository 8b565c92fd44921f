import LoadProbe.Clock
import LoadProbe.Rehearsal.Starts

/-!
# Runs whose outcomes are given beforehand

A launcher for rehearsals without any server: the runs take their fates from a list in the order
in which they begin, and a default once the list is used up. They either end at once or take as
long as their outcome says.
-/

namespace LoadProbe.Rehearsal

open Pass

/-- The script of the runs, and how far it has been played. -/
structure ScriptedRuns where
  /-- The fates of the runs that have not begun yet. -/
  script : List Fate
  /-- The fate of the runs after those of the script. -/
  default : Fate
  /-- A run takes the time that its outcome says; otherwise it takes none. -/
  sleeps : Bool
  starts : Starts

namespace ScriptedRuns

/-- Where a scripted run stands. -/
inductive Stage where
  | begin
  /-- The run will end so. -/
  | asleep (fate : Fate)

/-- How long a run of this fate takes; a crash comes at once. -/
def duration (sleeps : Bool) : Fate → Nat
  | .outcome o => if sleeps then o.millis.toNat else 0
  | .crash => 0

/-- The step of a scripted run. -/
def step (now : Nat) (w : ScriptedRuns) : Stage → Move ScriptedRuns Stage
  | .begin =>
    let fate := w.script.headD w.default
    let w := { w with script := w.script.tail, starts := w.starts.note now }
    ⟨w, [], [], .pause (duration w.sleeps fate) (.asleep fate)⟩
  | .asleep fate => ⟨w, [], [], .endRun fate⟩

def machine : Machine ScriptedRuns Stage where
  first := .begin
  step := step
  bound _ := true

/-- The launcher of scripted runs; each run makes two steps. -/
def launcher : Launcher (Timeline ScriptedRuns Stage) :=
  machine.launcher fun _ count => 2 * count + 1

end ScriptedRuns

end LoadProbe.Rehearsal
