import LoadProbe.Proofs.Pass.Interleaving
import LoadProbe.Proofs.Pass.Schedule

/-!
# A pass step by step

A `Flight` is a pass while its runs are in flight. The pass spawns one task for each run, gives up
its own hold of the collector and waits; each task begins its run, and when the run is over delivers
the outcome, unless the run crashed, and gives up its hold. Whoever waits goes on when a verdict was
sent, or when nobody holds the collector any more, so that none can be sent.

Seen from the collector a task that has not delivered yet is a call that has not begun, and a task
whose run crashed stays one for ever. So the cells are `Coherent` at every step
(`Flight.Faithful.step`). A verdict was sent only after all runs took a number, and nobody holds the
collector only after all runs are over; that is why a pass that has returned has none of its runs in
flight (`Flight.Faithful`). What it returned does not depend on the order of the steps, and it is
what the launcher's pass makes of the same fates (`Flight.verdict_eq_pass`). Under a fair schedule
every pass returns (`Flight.progress`).
-/

namespace LoadProbe

/-- The outcome that stands for a run among the calls of a pass. A crash delivers none, its call
never begins. -/
def Fate.landing (fate : Fate) : Outcome :=
  fate.outcome?.getD ⟨.error, 0⟩

namespace Pass

/-! ## Tasks -/

/-- The task of a run. It holds the collector, and with it the sender of the verdict, until it is
gone. -/
inductive Errand where
  /-- The run has not begun. -/
  | spawned (fate : Fate)
  /-- The run is in flight. -/
  | flying (fate : Fate)
  /-- The run died, and the task does or does not hold the collector. -/
  | crashed (holds : Bool)
  /-- The run is over, and its outcome is being delivered. -/
  | delivering (o : Outcome) (d : Delivery)
  /-- The outcome is delivered, and the collector not held any more. -/
  | gone (o : Outcome) (completed : Bool)

namespace Errand

/-- How the run ends. -/
def fate : Errand → Fate
  | spawned fate => fate
  | flying fate => fate
  | crashed _ => .crash
  | delivering o _ => .outcome o
  | gone o _ => .outcome o

/-- The run has begun. -/
def begun : Errand → Bool
  | spawned _ => false
  | _ => true

/-- The run has begun and is over. -/
def isOver : Errand → Bool
  | spawned _ => false
  | flying _ => false
  | _ => true

def holds : Errand → Bool
  | crashed holds => holds
  | gone _ _ => false
  | _ => true

/-- One step of a task: its run begins or ends, its delivery makes a step, or it gives up the
collector. -/
def step (t : Terms) (s : Tally) : Errand → Tally × Errand
  | spawned fate => (s, flying fate)
  | flying .crash => (s, crashed true)
  | flying (.outcome o) => (s, delivering o (.fresh o))
  | crashed _ => (s, crashed false)
  | delivering o (.ended completed) => (s, gone o completed)
  | delivering o d => ((d.step t s).1, delivering o (d.step t s).2.1)
  | gone o completed => (s, gone o completed)

/-- The call that the task makes. -/
def call : Errand → Call
  | delivering o d => ⟨o, d⟩
  | gone o completed => ⟨o, .ended completed⟩
  | e => .begin e.fate.landing

/-- How many steps are left at most. -/
def left : Errand → Nat
  | spawned _ => Delivery.length + 3
  | flying _ => Delivery.length + 2
  | crashed holds => holds.toNat
  | delivering o d => (Call.mk o d).left + 1
  | gone _ _ => 0

variable (t : Terms) (s : Tally) (e : Errand)

theorem fate_step : (e.step t s).2.fate = e.fate := by
  cases e with
  | flying fate => cases fate <;> rfl
  | delivering o d => cases d <;> rfl
  | _ => rfl

/-- What is over stays over. -/
theorem isOver_step (h : e.isOver = true) : (e.step t s).2.isOver = true := by
  cases e with
  | spawned fate | flying fate => cases h
  | delivering o d => cases d <;> rfl
  | crashed | gone => rfl

variable {e}

/-- A task that holds the collector has a step to make, which leaves a step less. -/
theorem left_step_of_holds (h : e.holds = true) : (e.step t s).2.left < e.left := by
  cases e with
  | spawned fate => exact Nat.lt_succ_self _
  | flying fate =>
    cases fate with
    | crash => simp [step, left, Delivery.length]
    | outcome o => exact Nat.lt_succ_self _
  | crashed holds =>
    obtain rfl : holds = true := h
    exact Nat.zero_lt_one
  | delivering o d =>
    have hleft := Call.left_step ⟨o, d⟩ t s
    cases d with
    | ended completed => exact Nat.succ_pos _
    | _ => exact Nat.succ_lt_succ (hleft.trans_lt (Nat.lt_succ_self _))
  | gone o completed => cases h

/-- Any other task has nothing to do. -/
theorem step_of_not_holds (h : e.holds = false) : e.step t s = (s, e) := by
  cases e with
  | spawned fate | flying fate | delivering o d => cases h
  | crashed holds =>
    obtain rfl : holds = false := h
    rfl
  | gone o completed => rfl

/-- A task whose call took a number has its run over, and it did not crash. -/
theorem of_taken (h : e.call.taken = true) : e.isOver = true ∧ e.fate ≠ .crash := by
  cases e with
  | spawned fate | flying fate | crashed holds => cases h
  | delivering o d => exact ⟨rfl, nofun⟩
  | gone o completed => exact ⟨rfl, nofun⟩

/-- A task that does not hold the collector has its run over, and its call too unless it
crashed. -/
theorem of_not_holds (h : e.holds = false) :
    e.isOver = true ∧ (e.fate = .crash ∨ e.call.left = 0) := by
  cases e with
  | spawned fate | flying fate | delivering o d => cases h
  | crashed holds => exact ⟨rfl, .inl rfl⟩
  | gone o completed => exact ⟨rfl, .inr rfl⟩

end Errand

/-- A verdict that was sent is the one on all outcomes, and all calls had taken numbers. -/
theorem Coherent.of_holds {t : Terms} {os : List Outcome} {c : Scene}
    (h : Coherent t os c) {v : Verdict} (hv : c.tally.mailbox = .holds v) :
    v = t.judge os ∧ ∀ k ∈ c.calls, k.taken = true := by
  have hall : os.length ≤ c.tally.received := by
    by_contra hlt
    rw [(h.awaited_of_lt (not_le.1 hlt)).1] at hv
    cases hv
  constructor
  · rcases h.mailbox_cases with ⟨-, hmailbox, -⟩ | ⟨-, hmailbox, -⟩
    · rw [hmailbox] at hv
      cases hv
    · rw [hmailbox] at hv
      cases hv
      rfl
  · rw [h.received, ← h.length_calls] at hall
    exact List.countP_eq_length.1 (le_antisymm List.countP_le_length hall)

/-! ## Passes -/

/-- How far a pass has come. -/
inductive Flight.Stage where
  /-- Runs that end like this are still to be spawned, and the pass holds the collector. -/
  | spawning (upcoming : List Fate)
  /-- The verdict is awaited. -/
  | waiting
  | returned (v : Verdict)

/-- A pass and the tasks of its runs. -/
structure Flight where
  executors : Int
  /-- How its runs end, in the order in which they are spawned. -/
  fates : List Fate
  tally : Tally
  tasks : List Errand
  stage : Flight.Stage

namespace Flight

/-- How the runs end that are still to be spawned. -/
def Stage.upcoming : Stage → List Fate
  | spawning upcoming => upcoming
  | _ => []

/-- How many steps of the pass and of tasks still to be spawned are left at most. -/
def Stage.left : Stage → Nat
  | spawning upcoming => (Delivery.length + 4) * upcoming.length + 2
  | waiting => 1
  | returned _ => 0

/-- The pass at its start. A number of executors that is not positive starts no run. -/
def begin (executors : Int) (fates : List Fate) : Flight :=
  ⟨executors, fates, .start, [], if executors ≤ 0 then .returned .noRuns else .spawning fates⟩

/-- One step of the pass itself: it spawns the next task, gives up its hold of the collector, or
looks for a verdict. There will be none once nobody holds the collector any more. -/
def main (f : Flight) : Flight :=
  match f.stage with
  | .spawning (fate :: rest) =>
    { f with tasks := f.tasks ++ [.spawned fate], stage := .spawning rest }
  | .spawning [] => { f with stage := .waiting }
  | .waiting =>
    match f.tally.mailbox with
    | .holds v => { f with stage := .returned v }
    | _ => if f.tasks.any (·.holds) then f else { f with stage := .returned .noRuns }
  | .returned _ => f

variable (s : Settings) (threshold : Float)

/-- What the pass is judged by. -/
def terms (f : Flight) : Terms :=
  passTerms s threshold f.executors.toNat

/-- One step of the task at an index. -/
def task (f : Flight) (i : Nat) : Flight :=
  match f.tasks[i]? with
  | none => f
  | some e =>
    { f with
      tally := (e.step (f.terms s threshold) f.tally).1
      tasks := f.tasks.set i (e.step (f.terms s threshold) f.tally).2 }

/-- One step of the pass itself, or of one of its tasks. -/
def step (f : Flight) : Option Nat → Flight
  | none => f.main
  | some i => f.task s threshold i

/-- How many runs have begun. -/
def launched (f : Flight) : Nat :=
  f.tasks.countP (·.begun)

/-- How many runs have begun and are not over. -/
def airborne (f : Flight) : Nat :=
  f.tasks.countP fun e => e.begun && !e.isOver

/-- The verdict that the fates of the runs lead to. -/
def verdict (f : Flight) : Verdict :=
  if f.executors ≤ 0 ∨ .crash ∈ f.fates then .noRuns
  else (f.terms s threshold).judge (f.fates.filterMap Fate.outcome?)

/-- What the collector sees of the pass. -/
def scene (f : Flight) : Scene :=
  ⟨f.tally, f.tasks.map Errand.call ++ f.stage.upcoming.map fun fate => .begin fate.landing⟩

/-- How many steps are left at most. -/
def left (f : Flight) : Nat :=
  (f.tasks.map Errand.left).sum + f.stage.left

variable {s threshold} {f : Flight}

/-! ## One step -/

/-- A task makes its step, and the others are left alone. -/
theorem task_of_append (s : Settings) (threshold : Float) {before after : List Errand}
    {e : Errand} (h : f.tasks = before ++ e :: after) :
    f.task s threshold before.length =
      { f with
        tally := (e.step (f.terms s threshold) f.tally).1
        tasks := before ++ (e.step (f.terms s threshold) f.tally).2 :: after } := by
  have he : f.tasks[before.length]? = some e := by simp [h]
  unfold task
  split
  · rename_i hnone
    rw [he] at hnone
    cases hnone
  · rename_i e' he'
    obtain rfl : e = e' := Option.some.inj (he.symm.trans he')
    simp [h]

/-- Where there is no task nothing changes. -/
theorem task_cases (f : Flight) (i : Nat) :
    f.task s threshold i = f ∨ ∃ before e after, f.tasks = before ++ e :: after ∧
      before.length = i ∧ f.task s threshold i =
        { f with
          tally := (e.step (f.terms s threshold) f.tally).1
          tasks := before ++ (e.step (f.terms s threshold) f.tally).2 :: after } := by
  rcases Nat.lt_or_ge i f.tasks.length with hi | hi
  · have htasks : f.tasks = f.tasks.take i ++ f.tasks[i] :: f.tasks.drop (i + 1) := by simp
    have hlength : (f.tasks.take i).length = i := List.length_take_of_le hi.le
    have hstep := task_of_append s threshold htasks
    rw [hlength] at hstep
    exact .inr ⟨_, _, _, htasks, hlength, hstep⟩
  · left
    unfold task
    rw [List.getElem?_eq_none hi]

/-- What the pass itself may do in one step. -/
inductive Moves : Flight → Flight → Prop
  | spawn (k : Int) (fates : List Fate) (tally : Tally) (tasks : List Errand) (fate : Fate)
      (rest : List Fate) :
      Moves ⟨k, fates, tally, tasks, .spawning (fate :: rest)⟩
        ⟨k, fates, tally, tasks ++ [.spawned fate], .spawning rest⟩
  | release (k : Int) (fates : List Fate) (tally : Tally) (tasks : List Errand) :
      Moves ⟨k, fates, tally, tasks, .spawning []⟩ ⟨k, fates, tally, tasks, .waiting⟩
  | receive (k : Int) (fates : List Fate) (tally : Tally) (tasks : List Errand) (v : Verdict)
      (hv : tally.mailbox = .holds v) :
      Moves ⟨k, fates, tally, tasks, .waiting⟩ ⟨k, fates, tally, tasks, .returned v⟩
  | giveUp (k : Int) (fates : List Fate) (tally : Tally) (tasks : List Errand)
      (hnone : ∀ v, tally.mailbox ≠ .holds v) (hheld : ∀ e ∈ tasks, e.holds = false) :
      Moves ⟨k, fates, tally, tasks, .waiting⟩ ⟨k, fates, tally, tasks, .returned .noRuns⟩
  | wait (k : Int) (fates : List Fate) (tally : Tally) (tasks : List Errand)
      (hheld : ∃ e ∈ tasks, e.holds = true) :
      Moves ⟨k, fates, tally, tasks, .waiting⟩ ⟨k, fates, tally, tasks, .waiting⟩
  | rest (k : Int) (fates : List Fate) (tally : Tally) (tasks : List Errand) (v : Verdict) :
      Moves ⟨k, fates, tally, tasks, .returned v⟩ ⟨k, fates, tally, tasks, .returned v⟩

theorem moves_main (f : Flight) : Moves f f.main := by
  obtain ⟨k, fates, tally, tasks, stage⟩ := f
  cases stage with
  | spawning upcoming =>
    cases upcoming with
    | nil => exact .release ..
    | cons fate rest => exact .spawn ..
  | returned v => exact .rest ..
  | waiting =>
    simp only [main]
    split
    · rename_i v hv
      exact .receive _ _ _ _ v hv
    · rename_i hnone
      split
      · rename_i hany
        exact .wait _ _ _ _ (List.any_eq_true.1 hany)
      · rename_i hany
        exact .giveUp _ _ _ _ hnone (by simpa using hany)

/-- No step changes how many executors the pass has and how their runs end. -/
theorem step_fixed (s : Settings) (threshold : Float) (f : Flight) (a : Option Nat) :
    (f.step s threshold a).executors = f.executors ∧ (f.step s threshold a).fates = f.fates := by
  cases a with
  | none =>
    have h : Moves f (f.step s threshold none) := f.moves_main
    generalize f.step s threshold none = f' at h ⊢
    cases h <;> exact ⟨rfl, rfl⟩
  | some i =>
    rw [step]
    rcases f.task_cases i with h | ⟨_, _, _, -, -, h⟩ <;> rw [h] <;> exact ⟨rfl, rfl⟩

theorem follow_fixed (f : Flight) (schedule : Nat → Option Nat) (n : Nat) :
    (follow (Flight.step s threshold) f schedule n).executors = f.executors ∧
      (follow (Flight.step s threshold) f schedule n).fates = f.fates := by
  induction n with
  | zero => exact ⟨rfl, rfl⟩
  | succ n ih =>
    obtain ⟨hexecutors, hfates⟩ :=
      (follow (Flight.step s threshold) f schedule n).step_fixed s threshold (schedule n)
    exact ⟨hexecutors.trans ih.1, hfates.trans ih.2⟩

/-- A pass that has returned stays so. -/
theorem stage_step_of_returned {v : Verdict} (h : f.stage = .returned v) (a : Option Nat) :
    (f.step s threshold a).stage = .returned v := by
  cases a with
  | none => simp only [step, main, h]
  | some i =>
    rw [step]
    rcases f.task_cases i with hsame | ⟨_, _, _, -, -, hstep⟩
    · rw [hsame, h]
    · rw [hstep, h]

/-- The collector sees nothing of what the pass itself does. -/
theorem Moves.scene_eq {f' : Flight} (h : Moves f f') : f'.scene = f.scene := by
  cases h with
  | spawn k fates tally tasks fate rest =>
    simp [scene, Stage.upcoming, Errand.call, Errand.fate]
  | release | receive | giveUp | wait | rest => rfl

/-- It sees the steps of the deliveries, and of a task nothing else. -/
theorem scene_task (f : Flight) (i : Nat) :
    (f.task s threshold i).scene = f.scene ∨
      (f.task s threshold i).scene = f.scene.step (f.terms s threshold) i := by
  rcases f.task_cases i with h | ⟨before, e, after, htasks, rfl, h⟩
  · exact .inl (congrArg scene h)
  · have hstep : f.scene.step (f.terms s threshold) before.length =
        ⟨(e.call.delivery.step (f.terms s threshold) f.tally).1,
          before.map Errand.call ++
            { e.call with delivery := (e.call.delivery.step (f.terms s threshold) f.tally).2.1 } ::
              (after.map Errand.call ++
                f.stage.upcoming.map fun fate => .begin fate.landing)⟩ := by
      simp [Scene.step, scene, htasks]
    rw [h, hstep]
    simp only [scene, htasks]
    cases e with
    | spawned fate | crashed holds | gone o completed =>
      left
      simp [Errand.step, Errand.call, Errand.fate]
    | flying fate =>
      left
      cases fate <;>
        simp [Errand.step, Errand.call, Errand.fate, Fate.landing, Fate.outcome?, Call.begin]
    | delivering o d =>
      right
      cases d <;> simp [Errand.step, Errand.call, Delivery.step]

/-! ## What holds at every step -/

/-- What holds of a pass at every step. -/
structure Faithful (s : Settings) (threshold : Float) (f : Flight) : Prop where
  length : f.fates.length = f.executors.toNat
  /-- Each run is spawned once, in order. -/
  spawned : f.tasks.map Errand.fate ++ f.stage.upcoming = f.fates
  empty : f.executors ≤ 0 → f.stage = .returned .noRuns
  coherent : 0 < f.executors → Coherent (f.terms s threshold) (f.fates.map Fate.landing) f.scene
  /-- A pass that has returned leaves no run in flight. -/
  returned : ∀ v, f.stage = .returned v →
    (∀ e ∈ f.tasks, e.isOver = true) ∧ v = f.verdict s threshold

theorem map_landing {fates : List Fate} (h : .crash ∉ fates) :
    fates.map Fate.landing = fates.filterMap Fate.outcome? := by
  induction fates with
  | nil => rfl
  | cons fate fates ih =>
    rw [List.mem_cons, not_or] at h
    cases fate with
    | crash => exact absurd rfl h.1
    | outcome o => exact congrArg (o :: ·) (ih h.2)

theorem Faithful.begin {executors : Int} {fates : List Fate}
    (h : fates.length = executors.toNat) : (begin executors fates).Faithful s threshold := by
  rcases le_or_gt executors 0 with hle | hpos
  · obtain rfl : fates = [] := List.length_eq_zero_iff.1 (by omega)
    have hstage : (Flight.begin executors []).stage = .returned .noRuns := if_pos hle
    refine ⟨h, by rw [hstage]; rfl, fun _ => hstage, fun hpos => absurd hle (not_le.2 hpos), ?_⟩
    intro v hv
    obtain rfl : Verdict.noRuns = v := by simpa [hstage] using hv
    exact ⟨nofun, (if_pos (.inl hle)).symm⟩
  · have hstage : (Flight.begin executors fates).stage = .spawning fates := if_neg (not_le.2 hpos)
    have hscene : (Flight.begin executors fates).scene = .start (fates.map Fate.landing) := by
      rw [scene, hstage]
      simp [Scene.start, Stage.upcoming, Flight.begin]
    refine ⟨h, by rw [hstage]; rfl, fun hle => absurd hle (not_le.2 hpos), fun _ => ?_, ?_⟩
    · have hne : fates ≠ [] := fun hnil => by
        rw [hnil, List.length_nil] at h
        omega
      rw [hscene]
      exact Coherent.start (List.map_eq_nil_iff.not.2 hne)
    · intro v hv
      rw [hstage] at hv
      cases hv

/-- When a verdict was sent all runs are over, none crashed, and it is the verdict on their
outcomes. -/
theorem Faithful.of_holds (h : f.Faithful s threshold) (hpos : 0 < f.executors)
    (hspawned : f.stage.upcoming = []) {v : Verdict} (hv : f.tally.mailbox = .holds v) :
    (∀ e ∈ f.tasks, e.isOver = true) ∧ v = f.verdict s threshold := by
  obtain ⟨hjudge, htaken⟩ := (h.coherent hpos).of_holds hv
  have htasks : ∀ e ∈ f.tasks, e.isOver = true ∧ e.fate ≠ .crash := by
    intro e he
    exact Errand.of_taken (htaken _ (List.mem_append_left _ (List.mem_map_of_mem he)))
  have hcrash : Fate.crash ∉ f.fates := by
    rw [← h.spawned, hspawned, List.append_nil, List.mem_map]
    rintro ⟨e, he, hfate⟩
    exact (htasks e he).2 hfate
  refine ⟨fun e he => (htasks e he).1, ?_⟩
  rw [verdict, if_neg (not_or.2 ⟨not_le.2 hpos, hcrash⟩), hjudge, map_landing hcrash]

/-- When nobody holds the collector and no verdict was sent, some run crashed. -/
theorem Faithful.crash_mem (h : f.Faithful s threshold) (hpos : 0 < f.executors)
    (hspawned : f.stage.upcoming = []) (hnone : ∀ v, f.tally.mailbox ≠ .holds v)
    (hheld : ∀ e ∈ f.tasks, e.holds = false) : .crash ∈ f.fates := by
  -- Otherwise all calls would be over, and one of them would have sent a verdict.
  by_contra hcrash
  have hend : ∀ k ∈ f.scene.calls, k.left = 0 := by
    intro k hk
    rw [scene, hspawned, List.map_nil, List.append_nil, List.mem_map] at hk
    obtain ⟨e, he, rfl⟩ := hk
    refine (Errand.of_not_holds (hheld e he)).2.resolve_left fun hfate => hcrash ?_
    rw [← h.spawned, ← hfate]
    exact List.mem_append_left _ (List.mem_map_of_mem he)
  exact hnone _ ((h.coherent hpos).all_ended hend).2

/-- What the pass itself does keeps this. -/
theorem Moves.faithful {f' : Flight} (hm : Moves f f') (h : f.Faithful s threshold) :
    f'.Faithful s threshold := by
  have hscene := hm.scene_eq
  cases hm with
  | spawn k fates tally tasks fate rest =>
    refine ⟨h.length, ?_, fun hle => absurd (h.empty hle) nofun, fun hpos => ?_, nofun⟩
    · rw [← h.spawned, List.map_append, List.append_assoc]
      rfl
    · rw [hscene]
      exact h.coherent hpos
  | release k fates tally tasks =>
    exact ⟨h.length, h.spawned, fun hle => absurd (h.empty hle) nofun, h.coherent, nofun⟩
  | receive k fates tally tasks v hv =>
    have hpos : 0 < k := not_le.1 fun hle => absurd (h.empty hle) nofun
    refine ⟨h.length, h.spawned, fun hle => absurd (h.empty hle) nofun, h.coherent, ?_⟩
    rintro _ ⟨⟩
    exact h.of_holds hpos rfl hv
  | giveUp k fates tally tasks hnone hheld =>
    have hpos : 0 < k := not_le.1 fun hle => absurd (h.empty hle) nofun
    refine ⟨h.length, h.spawned, fun _ => rfl, h.coherent, ?_⟩
    rintro _ ⟨⟩
    have hcrash := h.crash_mem hpos rfl hnone hheld
    exact ⟨fun e he => (Errand.of_not_holds (hheld e he)).1, (if_pos (.inr hcrash)).symm⟩
  | wait | rest => exact h

/-- What a task does keeps it, too. -/
theorem Faithful.task (h : f.Faithful s threshold) (i : Nat) :
    (f.task s threshold i).Faithful s threshold := by
  have hcoherent (hpos : 0 < f.executors) : Coherent (f.terms s threshold)
      (f.fates.map Fate.landing) (f.task s threshold i).scene := by
    rcases f.scene_task i with hsame | hstep
    · rw [hsame]
      exact h.coherent hpos
    · rw [hstep]
      exact (h.coherent hpos).step (by simp [terms, passTerms, h.length]) i
  rcases f.task_cases i with hsame | ⟨before, e, after, htasks, -, hstep⟩
  · rwa [hsame]
  · rw [hstep] at hcoherent ⊢
    refine ⟨h.length, ?_, h.empty, hcoherent, ?_⟩
    · have hspawned := h.spawned
      rw [htasks] at hspawned
      simpa only [List.map_append, List.map_cons, Errand.fate_step] using hspawned
    · intro v hv
      obtain ⟨hover, hverdict⟩ := h.returned v hv
      refine ⟨?_, hverdict⟩
      rw [htasks, List.forall_mem_append, List.forall_mem_cons] at hover
      rw [List.forall_mem_append, List.forall_mem_cons]
      exact ⟨hover.1, Errand.isOver_step _ _ _ hover.2.1, hover.2.2⟩

theorem Faithful.step (h : f.Faithful s threshold) (a : Option Nat) :
    (f.step s threshold a).Faithful s threshold := by
  cases a with
  | none => exact f.moves_main.faithful h
  | some i => exact h.task i

/-! ## The end of a pass -/

/-- The tasks that are spawned and the runs that are still to be make up the executors. -/
theorem Faithful.length_tasks (h : f.Faithful s threshold) :
    f.tasks.length + f.stage.upcoming.length = f.executors.toNat := by
  rw [← h.length, ← h.spawned, List.length_append, List.length_map]

/-- No more runs begin than there are executors. -/
theorem Faithful.launched_le (h : f.Faithful s threshold) : f.launched ≤ f.executors.toNat := by
  have hbegun : f.launched ≤ f.tasks.length := List.countP_le_length
  have := h.length_tasks
  omega

/-- A pass that has returned has launched all its runs, and none is in flight. -/
theorem Faithful.launched_of_returned (h : f.Faithful s threshold) {v : Verdict}
    (hv : f.stage = .returned v) : f.launched = f.executors.toNat ∧ f.airborne = 0 := by
  have hover := (h.returned v hv).1
  have hlength : f.tasks.length = f.executors.toNat := by
    rw [← h.length_tasks, hv]
    rfl
  constructor
  · rw [launched, ← hlength, List.countP_eq_length]
    intro e he
    have := hover e he
    cases e with
    | spawned fate => cases this
    | _ => rfl
  · rw [airborne, List.countP_eq_zero]
    intro e he
    simp [hover e he]

/-- The verdict is the one that any launcher's pass comes to when its runs end like this, in any
order. -/
theorem verdict_eq_pass {σ : Type} (l : Launcher σ) (w : σ)
    (h : (Pass.fates (l.together w f.executors.toNat).2).Perm f.fates) :
    f.verdict s threshold = (pass l s threshold w f.executors).2.1 := by
  rcases le_or_gt f.executors 0 with hle | hpos
  · rw [verdict, if_pos (.inl hle), pass_of_nonpos hle]
  · have houtcomes := h.filterMap Fate.outcome?
    rw [pass_verdict hpos, verdict]
    simp only [not_le.2 hpos, false_or, h.mem_iff]
    split
    · rfl
    · exact (Terms.judge_perm houtcomes).symm

/-! ## Progress -/

/-- What the pass itself does leaves a step less, unless it has returned or has to wait for a
task. -/
theorem Moves.left_lt {f' : Flight} (h : Moves f f') :
    f'.left < f.left ∨
      f' = f ∧ ((∃ v, f.stage = .returned v) ∨ ∃ e ∈ f.tasks, e.holds = true) := by
  cases h with
  | spawn k fates tally tasks fate rest =>
    left
    simp only [left, Stage.left, List.map_append, List.sum_append, List.map_cons, List.map_nil,
      List.sum_cons, List.sum_nil, Errand.left, List.length_cons, Nat.mul_succ]
    omega
  | release | receive | giveUp => exact .inl (Nat.add_lt_add_left (by simp [Stage.left]) _)
  | wait k fates tally tasks hheld => exact .inr ⟨rfl, .inr hheld⟩
  | rest k fates tally tasks v => exact .inr ⟨rfl, .inl ⟨v, rfl⟩⟩

/-- What a task does that holds the collector leaves a step less. -/
theorem left_task_lt {before after : List Errand} {e : Errand}
    (htasks : f.tasks = before ++ e :: after) (hholds : e.holds = true) :
    (f.task s threshold before.length).left < f.left := by
  have hstep := Errand.left_step_of_holds (f.terms s threshold) f.tally hholds
  rw [task_of_append s threshold htasks]
  simp only [left, htasks, List.map_append, List.map_cons, List.sum_append, List.sum_cons]
  omega

/-- No other task changes anything. -/
theorem task_eq_or_left_lt (s : Settings) (threshold : Float) (f : Flight) (i : Nat) :
    f.task s threshold i = f ∨ (f.task s threshold i).left < f.left := by
  rcases f.task_cases i with hsame | ⟨before, e, after, htasks, rfl, hstep⟩
  · exact .inl hsame
  · cases hholds : e.holds with
    | true => exact .inr (left_task_lt htasks hholds)
    | false =>
      left
      rw [hstep, Errand.step_of_not_holds _ _ hholds, ← htasks]

/-- As long as a pass has not returned, it or one of its tasks has a step to make. -/
theorem exists_left_lt (s : Settings) (threshold : Float) (h : ¬∃ v, f.stage = .returned v) :
    ∃ a, (f.step s threshold a).left < f.left := by
  rcases f.moves_main.left_lt with hlt | ⟨-, hreturned | ⟨e, he, hholds⟩⟩
  · exact ⟨none, hlt⟩
  · exact absurd hreturned h
  · obtain ⟨before, after, htasks⟩ := List.append_of_mem he
    exact ⟨some before.length, left_task_lt htasks hholds⟩

/-- A pass in which nobody has a step left to make has returned. -/
theorem returned_of_idle (h : ∀ a, f.step s threshold a = f) : ∃ v, f.stage = .returned v := by
  by_contra hnot
  obtain ⟨a, ha⟩ := exists_left_lt s threshold hnot
  rw [h a] at ha
  exact lt_irrefl _ ha

/-- The steps of a pass and of its tasks lead to its return. -/
theorem progress (s : Settings) (threshold : Float) :
    Progress (Flight.step s threshold) (fun _ => True) (fun f => ∃ v, f.stage = .returned v)
      left where
  keeps _ _ _ := trivial
  lowers f a _ := by
    cases a with
    | none => exact f.moves_main.left_lt.symm.imp_left And.left
    | some i => exact f.task_eq_or_left_lt s threshold i
  helped _ _ h := exists_left_lt s threshold h

end Flight

end Pass

end LoadProbe
