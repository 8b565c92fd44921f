import LoadProbe.Proofs.Clock.Turns
import LoadProbe.Proofs.Facade.Attempts
import LoadProbe.Proofs.Play.Delayed

/-!
# Where the tasks of a run stand in any order

Whatever the order in which the tasks of a run make their steps, at most two of them are on the
clock. One submits the strategy (`Submits`) and then pulls the feeds (`Task.Pulls`) until the run
ends. Beside it there is nothing, the watchdog, or the stop command that the watchdog has started
(`Beside`); the stop command goes on until it has made all the calls that it takes. `Standing` puts
this together, and the step of any task keeps it (`Standing.advance`), so it holds after any
`Script.Turns` of a run that has been launched (`Standing.of_turns`).
-/

namespace LoadProbe

open Facade Feed Pass
open Rehearsal.ScriptedServer (Delays)

/-- The clock on which a run is launched over a server with delays. -/
def Script.launched (s : Script) (p : Player) (d : Delays) : Timeline Calls Task :=
  (Timeline.start ⟨[], [], []⟩).launch (p.machine (s.delayed d))

/-- Steps of the tasks of this run, in any order. -/
abbrev Script.Turns (s : Script) (p : Player) (d : Delays) (t t' : Timeline Calls Task)
    (ended : List Fate) : Prop :=
  Timeline.Turns (p.machine (s.delayed d)) t t' ended

variable (p : Player) (s : Script)

/-- These submissions brought the run its id. -/
abbrev Obtained (runId : Int) (plays : List Nat) : Prop :=
  p.retry.Ends s.plays plays.length (.ok (.started runId))

/-- The task submits the strategy, after these submissions. -/
inductive Submits (plays : List Nat) : Task → Prop
  | begin : plays = [] → Submits plays .begin
  | submit {started : Nat} {attempt : UInt32} : p.retry.Reaches s.plays plays.length attempt →
      Submits plays (.submit started attempt)
  | submitted {made started : Nat} {attempt : UInt32} : p.retry.Reaches s.plays made attempt →
      plays.length = made + 1 → Submits plays (.submitted started attempt)

/-- The task pulls the feeds of the run of this id. -/
inductive Task.Pulls (runId : Int) : Task → Prop
  | pull {started : Nat} {kind : PullKind} {request : Request} {attempt : UInt32} :
      Pulls runId (.pull ⟨started, runId⟩ kind request attempt)
  | pulled {started : Nat} {kind : PullKind} {request : Request} {attempt : UInt32} :
      Pulls runId (.pulled ⟨started, runId⟩ kind request attempt)

/-- These are so many stop calls, all for the run of this id. -/
def AllStop (runId : Int) (calls : Nat) (stops : List (Nat × Int)) : Prop :=
  stops.map Prod.snd = List.replicate calls runId

/-- The entry of the stop command for the run of this id, after these calls. -/
inductive Calling (runId : Int) (stops : List (Nat × Int)) : List (Entry Task) → Prop
  | stop {due made : Nat} {attempt : UInt32} : p.retry.Reaches s.stops made attempt →
      AllStop runId made stops → Calling runId stops [⟨due, 0, .stop runId attempt⟩]
  | stopping {due made : Nat} {attempt : UInt32} : p.retry.Reaches s.stops made attempt →
      AllStop runId (made + 1) stops → Calling runId stops [⟨due, 0, .stopping runId attempt⟩]
  | stopped {calls : Nat} : p.retry.Takes s.stops calls → AllStop runId calls stops →
      Calling runId stops []

/-- A stop call is in flight. -/
def Task.awaitsStop : Task → Bool
  | .stopping _ _ => true
  | _ => false

/-- How many steps the stop command has left at most, when it takes so many calls. -/
def stopWork (calls : Nat) (stops : List (Nat × Int)) (aside : List (Entry Task)) : Nat :=
  2 * (calls - stops.length) + aside.countP fun e => e.task.awaitsStop

/-- The entry beside the task that leads the run of this id, after these stop calls: none when the
run is not watched, the watchdog, or the stop command. -/
inductive Beside (runId : Int) (stops : List (Nat × Int)) : List (Entry Task) → Prop
  | idle : stops = [] → Beside runId stops []
  | watching {due started : Nat} : p.deadline ≠ 0 → stops = [] →
      Beside runId stops [⟨due, 0, .watch ⟨started, runId⟩⟩]
  | calling {aside : List (Entry Task)} : p.deadline ≠ 0 → Calling p s runId stops aside →
      Beside runId stops aside

/-- Where the tasks of a run stand. -/
inductive Standing (t : Timeline Calls Task) : List Fate → Prop
  | submitting {due : Nat} {x : Task} : Submits p s t.world.plays x → t.world.stops = [] →
      t.agenda = [⟨due, 0, x⟩] → Standing t []
  | refused {fate : Fate} : NeverStarts p s → t.world.stops = [] → t.agenda = [] →
      Standing t [fate]
  | pulling {runId : Int} {due : Nat} {x : Task} {aside : List (Entry Task)} :
      Obtained p s runId t.world.plays → x.Pulls runId → Beside p s runId t.world.stops aside →
      t.agenda.Perm (⟨due, 0, x⟩ :: aside) → Standing t []
  | crashed {runId : Int} {aside : List (Entry Task)} : Obtained p s runId t.world.plays →
      Beside p s runId t.world.stops aside → t.agenda.Perm aside → Standing t [.crash]
  | quiet {runId : Int} {o : Outcome} : Obtained p s runId t.world.plays → t.world.stops = [] →
      t.agenda = [] → Standing t [.outcome o]
  | calling {runId : Int} {o : Outcome} : Obtained p s runId t.world.plays → p.deadline ≠ 0 →
      Calling p s runId t.world.stops t.agenda → Standing t [.outcome o]

variable {p s} {w : Calls} {runId : Int} {x : Task}

/-! ## Stop calls -/

theorem AllStop.length {calls : Nat} {stops : List (Nat × Int)} (h : AllStop runId calls stops) :
    stops.length = calls := by
  rw [← List.length_map Prod.snd, h, List.length_replicate]

theorem AllStop.concat {calls time : Nat} {stops : List (Nat × Int)}
    (h : AllStop runId calls stops) : AllStop runId (calls + 1) (stops ++ [(time, runId)]) := by
  rw [AllStop, List.map_append, h, List.replicate_succ']
  rfl

/-! ## Steps -/

/-- A step of the task that submits the strategy: it goes on submitting, or the run ends without an
id, or the id is known, the watchdog is started, and the feeds are pulled. -/
theorem submits_step (d : Delays) (now : Nat) (h : Submits p s w.plays x) :
    let move := p.step (s.delayed d) now w x
    move.world.stops = w.stops ∧
    ((move.started = [] ∧ move.next.Meets (fun _ y => Submits p s move.world.plays y)
        (fun _ => NeverStarts p s) False) ∨
      ∃ runId started y, Obtained p s runId move.world.plays ∧
        move.started = p.watchers ⟨started, runId⟩ ∧ move.next = .pause 0 y ∧ y.Pulls runId) := by
  cases h with
  | begin hplays =>
    refine ⟨rfl, .inl ⟨rfl, .submit ?_⟩⟩
    rw [show (p.step (s.delayed d) now w .begin).world.plays = [] from hplays]
    exact Policy.Reaches.first _ _
  | submit hreach =>
    refine ⟨rfl, .inl ⟨rfl, .submitted hreach ?_⟩⟩
    exact List.length_append
  | @submitted made started attempt hreach hplays =>
    have hanswer : s.plays (w.plays.length - 1) = s.plays made := by
      rw [hplays, Nat.add_sub_cancel]
    have hstep : p.step (s.delayed d) now w (.submitted started attempt) =
        p.afterSubmission now started attempt w (s.plays made) := by
      rw [← hanswer]
      rfl
    intro move
    have hworld : move.world = w := by
      rw [show move = _ from hstep]
      exact p.afterSubmission_world ..
    rw [hworld]
    refine ⟨rfl, ?_⟩
    rw [show move = _ from hstep]
    cases hplay : s.plays made with
    | ok answer =>
      have hends := hreach.ends_of_ok hplay
      rw [← hplays] at hends
      cases answer with
      | started runId => exact .inr ⟨runId, started, _, hends, rfl, rfl, .pull⟩
      | refused reason =>
        refine .inl ⟨rfl, fun _ _ hends' => ?_⟩
        cases (hends.unique hends').2
    | error e =>
      simp only [Player.afterSubmission]
      cases hafter : p.retry.after .transport attempt e with
      | again next =>
        have hnext := hreach.again hplay hafter
        rw [← hplays] at hnext
        exact .inl ⟨rfl, .submit hnext⟩
      | giveUp =>
        refine .inl ⟨rfl, fun _ _ hends' => ?_⟩
        cases ((hreach.ends_of_giveUp hplay hafter).unique hends').2
      | overflow => exact .inl ⟨rfl, fun _ _ hends => hreach.not_ends hplay hafter hends⟩

/-- A step starts no task, and goes on pulling the feeds of the run or ends it. -/
def KeepsPulls (runId : Int) (move : Move Calls Task) : Prop :=
  move.started = [] ∧ move.next.Meets (fun _ y => y.Pulls runId) (fun _ => True) False

theorem keepsPulls_afterPoll (p : Player) (now started : Nat) (request : Request)
    (returns : Returns) (w : Calls) :
    KeepsPulls runId (p.afterPoll now ⟨started, runId⟩ request returns w) := by
  unfold Player.afterPoll
  cases returns.lifecycle.terminal? with
  | none => exact ⟨rfl, .pull⟩
  | some status =>
    cases status with
    | success => exact ⟨rfl, .pull⟩
    | error | canceled => exact ⟨rfl, trivial⟩

theorem keepsPulls_afterPull (p : Player) (now started : Nat) (kind : PullKind) (request : Request)
    (attempt : UInt32) (w : Calls) (answer : Except Failure Returns) :
    KeepsPulls runId (p.afterPull now ⟨started, runId⟩ kind request attempt w answer) := by
  cases answer with
  | ok returns =>
    cases kind with
    | poll => exact keepsPulls_afterPoll ..
    | drain => exact ⟨rfl, trivial⟩
  | error e =>
    unfold Player.afterPull
    dsimp only
    cases p.retry.after .transport attempt e with
    | again next => exact ⟨rfl, .pull⟩
    | giveUp => cases kind <;> exact ⟨rfl, trivial⟩
    | overflow => exact ⟨rfl, trivial⟩

/-- A step of the task that pulls the feeds. -/
theorem pulls_step (p : Player) (s : Script) (d : Delays) (now : Nat) (w : Calls)
    (h : x.Pulls runId) :
    let move := p.step (s.delayed d) now w x
    move.world.plays = w.plays ∧ move.world.stops = w.stops ∧ KeepsPulls runId move := by
  cases h with
  | pull => exact ⟨rfl, rfl, rfl, .pulled⟩
  | pulled =>
    exact ⟨congrArg Calls.plays (p.afterPull_world ..),
      congrArg Calls.stops (p.afterPull_world ..), keepsPulls_afterPull ..⟩

section

variable {stops : List (Nat × Int)} {aside : List (Entry Task)} {e : Entry Task}

theorem Calling.eq_singleton (h : Calling p s runId stops aside) (he : e ∈ aside) :
    aside = [e] := by
  cases h with
  | stop | stopping => rw [List.mem_singleton.1 he]
  | stopped => cases he

/-- The end of its run does not end the stop command. -/
theorem Calling.unbound (h : Calling p s runId stops aside) :
    ∀ y ∈ aside, y.task.bound = false := by
  cases h with
  | stop | stopping => exact List.forall_mem_singleton.2 rfl
  | stopped => exact nofun

/-- A step of the stop command: it sends a call, or its call is answered. -/
theorem Calling.step (d : Delays) (now : Nat) (h : Calling p s runId w.stops [e]) :
    let move := p.step (s.delayed d) now w e.task
    e.run = 0 ∧ e.task.leads = false ∧ move.started = [] ∧ w.stops <+: move.world.stops ∧
      Calling p s runId move.world.stops (move.next.entries now 0) ∧
      ∀ calls, p.retry.Takes s.stops calls →
        stopWork calls move.world.stops (move.next.entries now 0) < stopWork calls w.stops [e] := by
  cases h with
  | @stop due made attempt hreach hcalls =>
    refine ⟨rfl, rfl, rfl, List.prefix_append _ _, .stopping hreach hcalls.concat, ?_⟩
    intro calls htakes
    have hlt := htakes.lt_of_reaches hreach
    show 2 * (calls - (w.stops ++ [(now, runId)]).length) + 1 < 2 * (calls - w.stops.length) + 0
    rw [hcalls.length, hcalls.concat.length]
    omega
  | @stopping due made attempt hreach hcalls =>
    have hanswer : s.stops (w.stops.length - 1) = s.stops made := by
      rw [hcalls.length, Nat.add_sub_cancel]
    have hstep : p.step (s.delayed d) now w (.stopping runId attempt) =
        p.afterStop runId attempt w (s.stops made) := by
      rw [← hanswer]
      rfl
    refine ⟨rfl, rfl, ?_⟩
    rw [hstep]
    unfold Player.afterStop
    -- In every case no call is in flight any more.
    cases hstop : s.stops made with
    | ok u =>
      have htakes := hreach.takes fun e he => by
        rw [hstop] at he
        cases he
      exact ⟨rfl, List.prefix_refl _, .stopped htakes hcalls, fun _ _ => Nat.lt_succ_self _⟩
    | error e =>
      dsimp only
      cases hafter : p.retry.after .transport attempt e with
      | again next =>
        exact ⟨rfl, List.prefix_refl _, .stop (hreach.again hstop hafter) hcalls,
          fun _ _ => Nat.lt_succ_self _⟩
      | giveUp | overflow =>
        have htakes := hreach.takes fun e he next => by
          rw [hstop] at he
          cases he
          rw [hafter]
          exact nofun
        exact ⟨rfl, List.prefix_refl _, .stopped htakes hcalls, fun _ _ => Nat.lt_succ_self _⟩

/-- One entry has one order. -/
theorem Calling.perm {aside' : List (Entry Task)} (h : Calling p s runId stops aside)
    (hperm : aside.Perm aside') : Calling p s runId stops aside' := by
  cases h with
  | stop hreach hcalls =>
    obtain rfl := List.perm_singleton.1 hperm.symm
    exact .stop hreach hcalls
  | stopping hreach hcalls =>
    obtain rfl := List.perm_singleton.1 hperm.symm
    exact .stopping hreach hcalls
  | stopped htakes hcalls =>
    obtain rfl := hperm.symm.eq_nil
    exact .stopped htakes hcalls

/-- A step on a clock that holds nothing but the stop command ends no run, and sends nothing but
stop calls. -/
theorem Calling.advance {d : Delays} {t : Timeline Calls Task} {rest : List (Entry Task)}
    (h : Calling p s runId t.world.stops t.agenda) (hagenda : t.agenda.Perm (e :: rest)) :
    let next := (t.advance (p.machine (s.delayed d)) e rest).1
    Calling p s runId next.world.stops next.agenda ∧
      fates (t.advance (p.machine (s.delayed d)) e rest).2 = [] ∧
      next.world.plays = t.world.plays ∧ next.world.pulls = t.world.pulls ∧
      t.world.stops <+: next.world.stops ∧
      ∀ calls, p.retry.Takes s.stops calls →
        stopWork calls next.world.stops next.agenda < stopWork calls t.world.stops t.agenda := by
  have hsingle := h.eq_singleton (hagenda.mem_iff.2 List.mem_cons_self)
  rw [hsingle] at h hagenda ⊢
  obtain rfl := hagenda.symm.cons_inv.eq_nil
  obtain ⟨agenda, hperm, hadvance, hfates⟩ :=
    Timeline.advance_perm_max (p.machine (s.delayed d)) t e (.refl [])
  obtain ⟨hrun, haside, hstarted, hstops, hnext, hwork⟩ := h.step d (max t.now e.due)
  obtain ⟨⟨-, hmeets⟩, hplays, hpulls⟩ :=
    step_aside_delayed p s d (max t.now e.due) t.world haside
  rw [Player.machine_step] at hadvance hfates hperm
  rw [(Next.others_of_meets _ e.run _ hmeets).1, hrun, hstarted, List.map_nil, List.append_nil,
    List.append_nil] at hperm
  rw [(Next.others_of_meets (p.machine (s.delayed d)) e.run [] hmeets).2] at hfates
  rw [hadvance]
  refine ⟨hnext.perm hperm.symm, hfates, hplays, hpulls, hstops, fun calls htakes => ?_⟩
  unfold stopWork
  rw [hperm.countP_eq]
  exact hwork calls htakes

namespace Beside

theorem eq_singleton (h : Beside p s runId stops aside) (he : e ∈ aside) : aside = [e] := by
  cases h with
  | idle => cases he
  | watching => rw [List.mem_singleton.1 he]
  | calling _ hcalling => exact hcalling.eq_singleton he

/-- The tasks that watch over a run whose id is known now. -/
theorem first (now started : Nat) (hstops : stops = []) :
    Beside p s runId stops ((p.watchers ⟨started, runId⟩).map (Entry.mk now 0)) := by
  unfold Player.watchers
  split
  · exact .idle hstops
  · exact .watching ‹_› hstops

/-- A run that ends with an outcome ends its watchdog, but no stop command. -/
theorem finish (h : Beside p s runId stops aside) :
    let left := aside.filter fun y => !(y.run == 0 && Task.bound y.task)
    (stops = [] ∧ left = []) ∨ (p.deadline ≠ 0 ∧ Calling p s runId stops left) := by
  cases h with
  | idle hstops => exact .inl ⟨hstops, rfl⟩
  | watching _ hstops => exact .inl ⟨hstops, rfl⟩
  | calling hdeadline hcalling =>
    refine .inr ⟨hdeadline, ?_⟩
    rwa [List.filter_eq_self.2 fun y hy => by rw [hcalling.unbound y hy, Bool.and_false]; rfl]

/-- A step of the watchdog or of the stop command. -/
theorem step (d : Delays) (now : Nat) (h : Beside p s runId w.stops [e]) :
    let move := p.step (s.delayed d) now w e.task
    e.run = 0 ∧ e.task.leads = false ∧
      Beside p s runId move.world.stops
        (move.next.entries now 0 ++ move.started.map (Entry.mk now 0)) := by
  cases h with
  | @watching due started hdeadline hstops =>
    refine ⟨rfl, rfl, ?_⟩
    dsimp only [Player.step]
    split
    · refine .calling hdeadline (.stop (Policy.Reaches.first _ _) ?_)
      show AllStop runId 0 w.stops
      rw [hstops]
      rfl
    · exact .watching hdeadline hstops
  | calling hdeadline hcalling =>
    obtain ⟨hrun, haside, hstarted, -, hnext, -⟩ := hcalling.step d now
    refine ⟨hrun, haside, ?_⟩
    rw [hstarted, List.map_nil, List.append_nil]
    exact .calling hdeadline hnext

end Beside

end

namespace Standing

variable {d : Delays} {t : Timeline Calls Task} {e : Entry Task} {rest aside : List (Entry Task)}
variable {ended : List Fate}

/-- A step while the strategy is submitted. -/
theorem advance_submitting (hrun : e.run = 0) (h : Submits p s t.world.plays e.task)
    (hstops : t.world.stops = []) :
    Standing p s (t.advance (p.machine (s.delayed d)) e []).1
      (fates (t.advance (p.machine (s.delayed d)) e []).2) := by
  obtain ⟨agenda, hperm, hadvance, hfates⟩ :=
    Timeline.advance_perm_max (p.machine (s.delayed d)) t e (.refl [])
  obtain ⟨hsame, hkeeps⟩ := submits_step d (max t.now e.due) h
  rw [hadvance, hfates]
  rw [Player.machine_step] at hperm ⊢
  rw [hrun] at hperm
  rw [hstops] at hsame
  generalize p.step (s.delayed d) (max t.now e.due) t.world e.task = move at hperm hsame hkeeps ⊢
  obtain ⟨w, said, started, next⟩ := move
  rcases hkeeps with ⟨hstarted, hnext⟩ | ⟨runId, known, y, hobtained, hstarted, hnext, hpulls⟩
  · dsimp only at hstarted
    subst hstarted
    cases next with
    | pause millis y => exact .submitting hnext hsame (List.perm_singleton.1 hperm)
    | giveWay y => exact .submitting hnext hsame (List.perm_singleton.1 hperm)
    | endRun fate => exact .refused hnext hsame (by cases fate <;> exact hperm.eq_nil)
    | endTask => exact hnext.elim
  · dsimp only at hstarted hnext
    subst hstarted hnext
    rw [List.append_nil] at hperm
    exact .pulling hobtained hpulls (.first _ known hsame) hperm

/-- A step of the task that pulls the feeds. -/
theorem advance_pulling (hrun : e.run = 0) (hobtained : Obtained p s runId t.world.plays)
    (hpulls : e.task.Pulls runId) (hbeside : Beside p s runId t.world.stops aside)
    (hrest : rest.Perm aside) :
    Standing p s (t.advance (p.machine (s.delayed d)) e rest).1
      (fates (t.advance (p.machine (s.delayed d)) e rest).2) := by
  obtain ⟨agenda, hperm, hadvance, hfates⟩ :=
    Timeline.advance_perm_max (p.machine (s.delayed d)) t e hrest
  obtain ⟨hplays, hstops, hstarted, hnext⟩ := pulls_step p s d (max t.now e.due) t.world hpulls
  rw [hadvance, hfates]
  rw [Player.machine_step] at hperm ⊢
  rw [hrun] at hperm
  rw [← hplays] at hobtained
  rw [← hstops] at hbeside
  generalize p.step (s.delayed d) (max t.now e.due) t.world e.task = move at *
  obtain ⟨w, said, started, next⟩ := move
  dsimp only at hstarted
  subst hstarted
  cases next with
  | pause millis y => exact .pulling hobtained hnext hbeside hperm
  | giveWay y => exact .pulling hobtained hnext hbeside hperm
  | endRun fate =>
    cases fate with
    | outcome o =>
      rcases hbeside.finish with ⟨hstops, hleft⟩ | ⟨hdeadline, hcalling⟩
      · exact .quiet hobtained hstops (hperm.trans (.of_eq hleft)).eq_nil
      · exact .calling hobtained hdeadline (hcalling.perm hperm.symm)
    | crash => exact .crashed hobtained hbeside hperm
  | endTask => exact hnext.elim

/-- A step of the watchdog or of the stop command, when the run has not ended with an outcome. -/
theorem advance_beside (hbeside : Beside p s runId t.world.stops [e])
    {others : List (Entry Task)} (hrest : rest.Perm others) :
    let next := (t.advance (p.machine (s.delayed d)) e rest).1
    ∃ aside, Beside p s runId next.world.stops aside ∧ next.agenda.Perm (others ++ aside) ∧
      next.world.plays = t.world.plays ∧
      fates (t.advance (p.machine (s.delayed d)) e rest).2 = [] := by
  obtain ⟨agenda, hperm, hadvance, hfates⟩ :=
    Timeline.advance_perm_max (p.machine (s.delayed d)) t e hrest
  obtain ⟨hrun, haside, hnext⟩ := hbeside.step d (max t.now e.due)
  obtain ⟨⟨-, hmeets⟩, hplays, -⟩ := step_aside_delayed p s d (max t.now e.due) t.world haside
  rw [Player.machine_step] at hadvance hfates hperm
  rw [(Next.others_of_meets _ e.run _ hmeets).1, hrun] at hperm
  rw [(Next.others_of_meets (p.machine (s.delayed d)) e.run [] hmeets).2] at hfates
  rw [hadvance]
  refine ⟨_, hnext, hperm.trans ?_, hplays, hfates⟩
  rw [← List.append_assoc]
  exact List.perm_append_comm

/-- A step of any task. -/
theorem advance (h : Standing p s t ended) (hagenda : t.agenda.Perm (e :: rest)) :
    Standing p s (t.advance (p.machine (s.delayed d)) e rest).1
      (ended ++ fates (t.advance (p.machine (s.delayed d)) e rest).2) := by
  cases h with
  | submitting h hstops hx =>
    rw [hx] at hagenda
    obtain ⟨rfl, rfl⟩ := List.cons.inj (List.perm_singleton.1 hagenda.symm)
    exact advance_submitting rfl h hstops
  | refused _ _ hnone | quiet _ _ hnone =>
    rw [hnone] at hagenda
    cases hagenda.symm.eq_nil
  | pulling hobtained hpulls hbeside hperm =>
    have hperm := hagenda.symm.trans hperm
    rcases List.mem_cons.1 (hperm.subset List.mem_cons_self) with rfl | he
    · exact advance_pulling rfl hobtained hpulls hbeside hperm.cons_inv
    · obtain rfl := hbeside.eq_singleton he
      have hrest := (hperm.trans (.swap ..)).cons_inv
      obtain ⟨aside, hbeside, hperm, hplays, hfates⟩ := advance_beside hbeside hrest
      rw [← hplays] at hobtained
      rw [hfates, List.append_nil]
      exact .pulling hobtained hpulls hbeside hperm
  | crashed hobtained hbeside hperm =>
    have hperm := hagenda.symm.trans hperm
    obtain rfl := hbeside.eq_singleton (hperm.subset List.mem_cons_self)
    obtain ⟨aside, hbeside, hperm, hplays, hfates⟩ := advance_beside hbeside hperm.cons_inv
    rw [← hplays] at hobtained
    rw [hfates, List.append_nil]
    exact .crashed hobtained hbeside hperm
  | calling hobtained hdeadline hcalling =>
    obtain ⟨hcalling, hfates, hplays, -⟩ := hcalling.advance hagenda
    rw [← hplays] at hobtained
    rw [hfates, List.append_nil]
    exact .calling hobtained hdeadline hcalling

/-- So the tasks of a run stand after any steps. -/
theorem of_turns (h : s.Turns p d (s.launched p d) t ended) : Standing p s t ended := by
  have hfirst : Standing p s (s.launched p d) [] := .submitting (.begin rfl) rfl rfl
  have hstanding := h.invariant (P := Standing p s) (fun hs hagenda => hs.advance hagenda) hfirst
  rwa [List.nil_append] at hstanding

end Standing

end LoadProbe
