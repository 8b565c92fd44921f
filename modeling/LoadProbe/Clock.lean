import LoadProbe.Pass.Launcher

/-!
# Tasks under a virtual clock

A `Machine` describes tasks that act on a world: a step takes no time, may start further tasks,
and then pauses, gives way to the tasks that are ready, ends its run, or ends just itself. A run
is a task together with the tasks that it has started; when the run ends with an outcome, those of
its tasks that are bound to it end as well, and the others go on. A crash ends no other task.

`Timeline` executes many runs on one clock. Its agenda lists the tasks by the time at which they
go on, those of one time in the order in which they came, and the clock jumps from entry to entry.
`Machine.launcher` is the launcher that starts runs in this way.
-/

namespace LoadProbe

open Pass

/-- What a task does after a step. -/
inductive Next (τ : Type) where
  /-- Goes on as `task` after so many milliseconds; after 0, at once. -/
  | pause (millis : Nat) (task : τ)
  /-- Goes on as `task` after the tasks that are ready now. -/
  | giveWay (task : τ)
  /-- The run is over. -/
  | endRun (fate : Fate)
  /-- The task is over, and its run goes on. -/
  | endTask

/-- What a step of a task brings about. -/
structure Move (ω τ : Type) where
  world : ω
  said : List Notice
  started : List τ
  next : Next τ

/-- Tasks `τ` that act on a world `ω`. -/
structure Machine (ω τ : Type) where
  /-- The first task of a run. -/
  first : τ
  /-- The step of a task at a time. -/
  step : Nat → ω → τ → Move ω τ
  /-- The task ends with its run. -/
  bound : τ → Bool

/-- A task that will go on. -/
structure Entry (τ : Type) where
  due : Nat
  run : Nat
  task : τ

/-- Puts an entry behind all that are due no later. -/
def enqueue {τ : Type} (e : Entry τ) : List (Entry τ) → List (Entry τ)
  | [] => [e]
  | x :: rest => if x.due ≤ e.due then x :: enqueue e rest else e :: x :: rest

/-- Runs in execution on one clock. -/
structure Timeline (ω τ : Type) where
  now : Nat
  agenda : List (Entry τ)
  /-- How many runs have been started. -/
  runs : Nat
  world : ω

namespace Timeline

variable {ω τ : Type}

/-- The clock at its start. -/
def start (w : ω) : Timeline ω τ := ⟨0, [], 0, w⟩

/-- Starts one more run. -/
def launch (m : Machine ω τ) (t : Timeline ω τ) : Timeline ω τ :=
  { t with
    agenda := enqueue ⟨t.now, t.runs, m.first⟩ t.agenda
    runs := t.runs + 1 }

/-- Starts so many runs more. -/
def launchMany (m : Machine ω τ) : Nat → Timeline ω τ → Timeline ω τ
  | 0, t => t
  | n + 1, t => launchMany m n (t.launch m)

/-- Lets the first task of the agenda, whose run is `run`, make its step. -/
def advance (m : Machine ω τ) (t : Timeline ω τ) (e : Entry τ) (rest : List (Entry τ)) :
    Timeline ω τ × List Event :=
  let now := max t.now e.due
  let move := m.step now t.world e.task
  let agenda := move.started.foldl (fun a task => enqueue ⟨now, e.run, task⟩ a) rest
  let reports := move.said.map Event.report
  match move.next with
  | .pause 0 task => (⟨now, ⟨now, e.run, task⟩ :: agenda, t.runs, move.world⟩, reports)
  | .pause millis task =>
    (⟨now, enqueue ⟨now + millis, e.run, task⟩ agenda, t.runs, move.world⟩, reports)
  | .giveWay task => (⟨now, enqueue ⟨now, e.run, task⟩ agenda, t.runs, move.world⟩, reports)
  | .endRun fate =>
    let left := match fate with
      | .outcome _ => agenda.filter fun x => !(x.run == e.run && m.bound x.task)
      | .crash => agenda
    (⟨now, left, t.runs, move.world⟩, reports ++ [.ended fate])
  | .endTask => (⟨now, agenda, t.runs, move.world⟩, reports)

/-- Goes on until so many runs have ended, in at most `fuel` steps. -/
def untilEnded (m : Machine ω τ) : Nat → Nat → Timeline ω τ → Timeline ω τ × List Event
  | 0, _, t => (t, [])
  | fuel + 1, waiting, t =>
    if waiting = 0 then (t, [])
    else match t.agenda with
      | [] => (t, [])
      | e :: rest =>
        let (t, events) := t.advance m e rest
        let (t, later) := untilEnded m fuel (waiting - (fates events).length) t
        (t, events ++ later)

/-- Goes on with everything that is due by a time, in at most `fuel` steps. -/
def untilTime (m : Machine ω τ) (last : Nat) : Nat → Timeline ω τ → Timeline ω τ × List Event
  | 0, t => (t, [])
  | fuel + 1, t =>
    match t.agenda with
    | [] => (t, [])
    | e :: rest =>
      if last < e.due then (t, [])
      else
        let (t, events) := t.advance m e rest
        let (t, later) := untilTime m last fuel t
        (t, events ++ later)

/-- A step ends one run at most. -/
theorem length_fates_advance (m : Machine ω τ) (t : Timeline ω τ) (e : Entry τ)
    (rest : List (Entry τ)) : (fates (t.advance m e rest).2).length ≤ 1 := by
  have hreports (said : List Notice) : fates (said.map Event.report) = [] := by
    simp [fates]
  unfold advance
  dsimp only
  split <;> simp only [fates_append, hreports] <;> simp [fates]

/-- No more runs end than are waited for. -/
theorem length_fates_untilEnded (m : Machine ω τ) (fuel waiting : Nat) (t : Timeline ω τ) :
    (fates (t.untilEnded m fuel waiting).2).length ≤ waiting := by
  induction fuel generalizing waiting t with
  | zero => exact Nat.zero_le _
  | succ fuel ih =>
    unfold untilEnded
    split
    · exact Nat.zero_le _
    · split
      · exact Nat.zero_le _
      · rename_i e rest _
        have hstep := length_fates_advance m t e rest
        have hlater := ih (waiting - (fates (t.advance m e rest).2).length) (t.advance m e rest).1
        simp only [fates_append, List.length_append]
        omega

end Timeline

/-- What is reported in events. -/
def reportsOf (events : List Event) : List Notice :=
  events.filterMap fun
    | .report n => some n
    | .ended _ => none

/-- The fate of the first run that ends in events; when none does, its task is taken to have
died. -/
def fateOf (events : List Event) : Fate :=
  (events.findSome? fun
    | .ended fate => some fate
    | .report _ => none).getD .crash

/-- The events of so many runs; those that have not ended in them are taken to have died. -/
def settle (count : Nat) (events : List Event) : List Event :=
  events ++ .replicate (count - (fates events).length) (.ended .crash)

theorem length_fates_settle {count : Nat} {events : List Event} (h : (fates events).length ≤ count) :
    (fates (settle count events)).length = count := by
  rw [settle, fates_append, List.length_append, length_fates_crashes]
  omega

/-- The launcher that starts runs of a machine under the virtual clock; `fuel w n` steps are
enough for `n` runs in the world `w`. -/
def Machine.launcher {ω τ : Type} (m : Machine ω τ) (fuel : ω → Nat → Nat) :
    Launcher (Timeline ω τ) where
  single t :=
    let (t, events) := (t.launch m).untilEnded m (fuel t.world 1 + t.agenda.length) 1
    (t, reportsOf events, fateOf events)
  together t count :=
    let (t, events) :=
      (t.launchMany m count).untilEnded m (fuel t.world count + t.agenda.length) count
    (t, settle count events)
  complete _ _ := length_fates_settle (Timeline.length_fates_untilEnded ..)

end LoadProbe
