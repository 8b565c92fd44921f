import LoadProbe.Proofs.Clock.Agenda
import LoadProbe.Proofs.Play.Delayed
import LoadProbe.Proofs.Play.Outcome
import Mathlib.Data.Nat.Find

/-!
# The watchdog and the stop command

The watchdog of a run compares the time with the deadline when the run id is known and then at a
fixed interval, and `FirstCheck` is the first of these times after the deadline. Three threads of
tasks are on the clock at most: the one that leads the run (`Thread`), and beside it the watchdog
and then the stop command (`Guard`, `Stopping`). `Watched` puts them together and is kept by every
step, so that a run that lives past its first check after the deadline gets one stop command, then
and there, and one that ends before gets none (`Script.stopped_once`).
-/

namespace LoadProbe

open Facade Feed Pass
open Rehearsal.ScriptedServer (Delays)

/-! ## The first check after the deadline -/

/-- A run that is watched from `known` on is checked at this time. -/
def IsCheck (interval known due : Nat) : Prop :=
  ∃ k, due = known + k * interval

/-- The check at `time` is the first one after the deadline. -/
structure FirstCheck (deadline interval known time : Nat) : Prop where
  check : IsCheck interval known time
  late : deadline < time
  least : ∀ due, IsCheck interval known due → deadline < due → time ≤ due

section Checks

variable {deadline interval known time due : Nat}

theorem IsCheck.first (interval known : Nat) : IsCheck interval known known :=
  ⟨0, by rw [Nat.zero_mul, Nat.add_zero]⟩

theorem IsCheck.next (h : IsCheck interval known due) : IsCheck interval known (due + interval) := by
  obtain ⟨k, rfl⟩ := h
  exact ⟨k + 1, by rw [Nat.succ_mul, Nat.add_assoc]⟩

namespace FirstCheck

/-- There is one, at most an interval after the deadline and after the time from which on the run is
watched. -/
theorem exists_le (h : 0 < interval) (deadline known : Nat) :
    ∃ time, FirstCheck deadline interval known time ∧ time ≤ max deadline known + interval := by
  have hlate : ∃ k, deadline < known + k * interval := by
    have hle := Nat.le_mul_of_pos_right (deadline + 1) h
    exact ⟨deadline + 1, by omega⟩
  refine ⟨_, ⟨⟨Nat.find hlate, rfl⟩, Nat.find_spec hlate, ?_⟩, ?_⟩
  · rintro _ ⟨k, rfl⟩ hk
    exact Nat.add_le_add_left (Nat.mul_le_mul_right interval (Nat.find_min' hlate hk)) known
  · cases hfind : Nat.find hlate with
    | zero => omega
    | succ k =>
      have hbefore := Nat.find_min hlate (show k < Nat.find hlate by omega)
      rw [Nat.succ_mul]
      omega

theorem unique {time' : Nat} (h : FirstCheck deadline interval known time)
    (h' : FirstCheck deadline interval known time') : time = time' :=
  Nat.le_antisymm (h.least time' h'.check h'.late) (h'.least time h.check h.late)

theorem known_le (h : FirstCheck deadline interval known time) : known ≤ time := by
  obtain ⟨k, rfl⟩ := h.check
  exact Nat.le_add_right known _

/-- A check that is not late yet is followed by one that is no later than the first late one. -/
theorem next_le (h : FirstCheck deadline interval known time) (hdue : IsCheck interval known due)
    (hearly : ¬deadline < due) : due + interval ≤ time := by
  have hlate := h.late
  obtain ⟨j, rfl⟩ := h.check
  obtain ⟨k, rfl⟩ := hdue
  have hkj : k < j := by
    by_contra hjk
    have := Nat.mul_le_mul_right interval (Nat.le_of_not_lt hjk)
    omega
  have hnext := Nat.mul_le_mul_right interval hkj
  rw [Nat.succ_mul] at hnext
  omega

end FirstCheck

end Checks

variable (p : Player) (s : Script) (d : Delays)

/-! ## The stop command -/

/-- So many calls of the stop command that is started at `time`, sent one after the other. -/
def stopCalls (runId : Int) (time calls : Nat) : List (Nat × Int) :=
  (sendTimes d.stop calls).map fun after => (time + after, runId)

/-- These are the calls of one stop command for the run, which is started at `time`: its first call
then, and each further one when the transport has lost the one before. -/
def StopCommand (runId : Int) (time : Nat) (stops : List (Nat × Int)) : Prop :=
  ∃ made attempt, p.retry.Reaches s.stops made attempt ∧
    stops = stopCalls d runId time (made + 1)

/-- The entry of the stop command that is started at `time`, after these calls. -/
inductive Stopping (runId : Int) (time : Nat) (stops : List (Nat × Int)) : List (Entry Task) → Prop
  | stop {made due : Nat} {attempt : UInt32} : p.retry.Reaches s.stops made attempt →
      stops = stopCalls d runId time made → (stops = [] ∨ StopCommand p s d runId time stops) →
      due = time + made * d.stop → Stopping runId time stops [⟨due, 0, .stop runId attempt⟩]
  | stopping {made due : Nat} {attempt : UInt32} : p.retry.Reaches s.stops made attempt →
      stops = stopCalls d runId time (made + 1) → due = time + (made + 1) * d.stop →
      Stopping runId time stops [⟨due, 0, .stopping runId attempt⟩]
  | stopped : StopCommand p s d runId time stops → Stopping runId time stops []

variable {p s d} {w : Calls} {now known time : Nat} {runId : Int}

theorem length_stopCalls (calls : Nat) : (stopCalls d runId time calls).length = calls := by
  rw [stopCalls, List.length_map, length_sendTimes]

theorem stopCalls_succ (calls : Nat) : stopCalls d runId time (calls + 1) =
    stopCalls d runId time calls ++ [(time + calls * d.stop, runId)] := by
  rw [stopCalls, sendTimes_succ, List.map_append]
  rfl

theorem StopCommand.ne_nil {stops : List (Nat × Int)} (h : StopCommand p s d runId time stops) :
    stops ≠ [] := by
  obtain ⟨made, _, _, rfl⟩ := h
  rw [stopCalls_succ]
  exact List.append_ne_nil_of_right_ne_nil _ (List.cons_ne_nil _ _)

namespace Stopping

variable {stops : List (Nat × Int)} {aside : List (Entry Task)} {x : Task}

/-- A step of the stop command. -/
theorem step (h : Stopping p s d runId time w.stops [⟨now, 0, x⟩]) :
    let move := p.step (s.delayed d) now w x
    move.started = [] ∧
      Stopping p s d runId time move.world.stops (move.next.entries now 0) := by
  cases h with
  | stop hreach hstops _ hdue =>
    refine ⟨rfl, .stopping hreach ?_ ?_⟩
    · show w.stops ++ [(now, runId)] = _
      rw [stopCalls_succ, hstops, hdue]
    · show now + d.stop = _
      rw [hdue, Nat.succ_mul, Nat.add_assoc]
  | @stopping made _ attempt hreach hstops hdue =>
    have hanswer : s.stops (w.stops.length - 1) = s.stops made := by
      rw [hstops, length_stopCalls, Nat.add_sub_cancel]
    have hstep : p.step (s.delayed d) now w (.stopping runId attempt) =
        p.afterStop runId attempt w (s.stops made) := by
      rw [← hanswer]
      rfl
    have hover : StopCommand p s d runId time w.stops := ⟨made, attempt, hreach, hstops⟩
    rw [hstep]
    unfold Player.afterStop
    cases hstop : s.stops made with
    | ok => exact ⟨rfl, .stopped hover⟩
    | error e =>
      dsimp only
      cases hafter : p.retry.after .transport attempt e with
      | again next => exact ⟨rfl, .stop (hreach.again hstop hafter) hstops (.inr hover) hdue⟩
      | giveUp | overflow => exact ⟨rfl, .stopped hover⟩

/-- A stop command goes on when its run ends. -/
theorem unbound (h : Stopping p s d runId time stops aside) :
    aside.filter (fun y => !(y.run == 0 && Task.bound y.task)) = aside := by
  cases h <;> rfl

theorem command (h : Stopping p s d runId time stops aside) :
    stops = [] ∨ StopCommand p s d runId time stops := by
  cases h with
  | stop _ _ hcommand _ => exact hcommand
  | stopping hreach hstops _ => exact .inr ⟨_, _, hreach, hstops⟩
  | stopped hcommand => exact .inr hcommand

/-- Once the clock is past its start, its first call has been sent. -/
theorem command_of_past (h : Stopping p s d runId time stops aside)
    (hpast : ∀ e ∈ aside, time < e.due) : StopCommand p s d runId time stops := by
  refine h.command.resolve_left fun hnone => ?_
  cases h with
  | @stop made due _ _ hstops _ hdue =>
    have hmade := congrArg List.length (hstops.symm.trans hnone)
    rw [length_stopCalls, List.length_nil] at hmade
    have hlate : time < due := hpast _ List.mem_cons_self
    rw [hdue, hmade, Nat.zero_mul] at hlate
    exact Nat.lt_irrefl _ hlate
  | stopping hreach hstops _ => exact StopCommand.ne_nil ⟨_, _, hreach, hstops⟩ hnone
  | stopped hcommand => exact hcommand.ne_nil hnone

end Stopping

/-! ## Beside the leading task -/

/-- The entry of the task that leads a run which has started, or how the run has ended. -/
inductive Thread (p : Player) (s : Script) (d : Delays) (runId : Int)
    (pulls : List (Nat × Request)) : List (Entry Task) → List Fate → Prop
  | running {due : Nat} {x : Task} : Pulling p s d runId pulls due x →
      Thread p s d runId pulls [⟨due, 0, x⟩] []
  | finished {now : Nat} {kind : PullKind} {request : Request} {fate : Fate} :
      Sent p s d runId pulls now kind request → Thread p s d runId pulls [] [fate]

/-- The entries of the tasks beside it at `now`, when the run is watched from `known` on and `time`
is its first check after the deadline: the watchdog until then, unless the run is over before, and
the stop command from then on. -/
inductive Guard (p : Player) (s : Script) (d : Delays) (runId : Int) (known time now : Nat)
    (ended : List Fate) (pulls : List (Nat × Request)) (stops : List (Nat × Int)) :
    List (Entry Task) → Prop
  | unwatched : p.deadline = 0 → stops = [] →
      Guard p s d runId known time now ended pulls stops []
  | watching {due : Nat} : p.deadline ≠ 0 → stops = [] → (∀ o, ended ≠ [.outcome o]) →
      IsCheck p.timing.watchdogInterval known due → due ≤ time →
      Guard p s d runId known time now ended pulls stops [⟨due, 0, .watch ⟨0, runId⟩⟩]
  | aborted {o : Outcome} : stops = [] → ended = [.outcome o] →
      (∀ call ∈ pulls, call.1 + d.pull ≤ time) →
      Guard p s d runId known time now ended pulls stops []
  | stopping {aside : List (Entry Task)} : p.deadline ≠ 0 → time ≤ now →
      (∀ o, ended = [.outcome o] → ∃ call ∈ pulls, time ≤ call.1 + d.pull) →
      Stopping p s d runId time stops aside →
      Guard p s d runId known time now ended pulls stops aside

namespace Guard

variable {ended : List Fate} {pulls : List (Nat × Request)} {stops : List (Nat × Int)}
variable {aside : List (Entry Task)} {e : Entry Task} {now' : Nat}

theorem eq_singleton (h : Guard p s d runId known time now ended pulls stops aside)
    (he : e ∈ aside) : aside = [e] := by
  cases h with
  | unwatched | aborted => cases he
  | watching => rw [List.mem_singleton.1 he]
  | stopping _ _ _ hstopping =>
    cases hstopping with
    | stop | stopping => rw [List.mem_singleton.1 he]
    | stopped => cases he

/-- The tasks that watch over a run whose id is known now. -/
theorem first (hcheck : FirstCheck p.deadline p.timing.watchdogInterval known time)
    (hstops : stops = []) :
    Guard p s d runId known time known [] pulls stops
      ((p.watchers ⟨0, runId⟩).map (Entry.mk known 0)) := by
  unfold Player.watchers
  split
  · exact .unwatched ‹_› hstops
  · exact .watching ‹_› hstops nofun (.first _ known) hcheck.known_le

/-- A run that goes on, or crashes, leaves its watchdog as it is. -/
theorem goesOn {pulls' : List (Nat × Request)}
    (h : Guard p s d runId known time now [] pulls stops aside) (hnow : now ≤ now')
    (hended : ∀ o, ended ≠ [.outcome o]) :
    Guard p s d runId known time now' ended pulls' stops aside := by
  cases h with
  | unwatched hdeadline hstops => exact .unwatched hdeadline hstops
  | watching hdeadline hstops _ hcheck htime =>
    exact .watching hdeadline hstops hended hcheck htime
  | aborted _ hnone _ => cases hnone
  | stopping hdeadline htime _ hstopping =>
    exact .stopping hdeadline (Nat.le_trans htime hnow) (fun o ho => absurd ho (hended o)) hstopping

/-- A run that ends with an outcome ends its watchdog, but no stop command. -/
theorem finish {o : Outcome} {kind : PullKind} {request : Request}
    (h : Guard p s d runId known time now [] pulls stops aside) (hnow : now ≤ now')
    (hfirst : ∀ e ∈ aside, now' ≤ e.due) {pulls' : List (Nat × Request)}
    (hsent : Sent p s d runId pulls' now' kind request) :
    Guard p s d runId known time now' [.outcome o] pulls' stops
      (aside.filter fun y => !(y.run == 0 && Task.bound y.task)) := by
  cases h with
  | unwatched hdeadline hstops => exact .unwatched hdeadline hstops
  | watching _ hstops _ _ htime =>
    have hearly := Nat.le_trans (hfirst _ List.mem_cons_self) htime
    exact .aborted hstops rfl fun call hcall => Nat.le_trans (hsent.answered call hcall) hearly
  | aborted _ hnone _ => cases hnone
  | stopping hdeadline htime _ hstopping =>
    obtain ⟨call, hcall, hanswered⟩ := hsent.exists_last
    have hlate := Nat.le_trans htime hnow
    rw [hstopping.unbound]
    exact .stopping hdeadline hlate (fun _ _ => ⟨call, hcall, hanswered.symm ▸ hlate⟩) hstopping

/-- A step of the watchdog or of the stop command. -/
theorem step (hcheck : FirstCheck p.deadline p.timing.watchdogInterval known time)
    (h : Guard p s d runId known time now ended w.pulls w.stops [e]) (hnow : now ≤ e.due) :
    let move := p.step (s.delayed d) e.due w e.task
    e.run = 0 ∧ e.task.leads = false ∧
      Guard p s d runId known time e.due ended w.pulls move.world.stops
        (move.next.entries e.due 0 ++ move.started.map (Entry.mk e.due 0)) := by
  cases h with
  | @watching due hdeadline hstops hended hdue htime =>
    refine ⟨rfl, rfl, ?_⟩
    dsimp only [Player.step]
    split
    · rename_i hlate
      -- The first check that is late: the stop command is started.
      obtain rfl := Nat.le_antisymm htime (hcheck.least due hdue hlate)
      refine .stopping hdeadline (Nat.le_refl due) (fun o ho => absurd ho (hended o)) ?_
      exact .stop (Policy.Reaches.first _ _) hstops (.inl hstops) (by rw [Nat.zero_mul]; rfl)
    · rename_i hearly
      exact .watching hdeadline hstops hended hdue.next (hcheck.next_le hdue hearly)
  | stopping hdeadline htime hlate hstopping =>
    obtain ⟨due, run, x⟩ := e
    have haside : run = 0 ∧ x.leads = false := by cases hstopping <;> exact ⟨rfl, rfl⟩
    obtain ⟨rfl, hleads⟩ := haside
    obtain ⟨hstarted, hnext⟩ := hstopping.step
    refine ⟨rfl, hleads, ?_⟩
    dsimp only
    rw [hstarted, List.map_nil, List.append_nil]
    exact .stopping hdeadline (Nat.le_trans htime hnow) hlate hnext

theorem command (h : Guard p s d runId known time now ended pulls stops aside) :
    stops = [] ∨ StopCommand p s d runId time stops := by
  cases h with
  | unwatched _ hstops | watching _ hstops | aborted hstops => exact .inl hstops
  | stopping _ _ _ hstopping => exact hstopping.command

/-- A run that is over early is not asked to stop. -/
theorem quiet_of_early {o : Outcome}
    (h : Guard p s d runId known time now [.outcome o] pulls stops aside)
    (hearly : ∀ call ∈ pulls, call.1 + d.pull < time) : stops = [] := by
  cases h with
  | unwatched _ hstops | watching _ hstops | aborted hstops => exact hstops
  | stopping _ _ hlate _ =>
    obtain ⟨call, hcall, hle⟩ := hlate o rfl
    exact absurd (hearly call hcall) (Nat.not_lt.2 hle)

/-- A run that is not over early has been asked to stop once the clock is past the time of it. -/
theorem command_of_past (h : Guard p s d runId known time now ended pulls stops aside)
    (hdeadline : p.deadline ≠ 0)
    (hlate : ∀ o, ended = [.outcome o] → ∃ call ∈ pulls, time < call.1 + d.pull)
    (hpast : ∀ e ∈ aside, time < e.due) : StopCommand p s d runId time stops := by
  cases h with
  | unwatched hnone _ => exact absurd hnone hdeadline
  | watching _ _ _ _ htime => exact absurd (hpast _ List.mem_cons_self) (Nat.not_lt.2 htime)
  | aborted _ hended hearly =>
    obtain ⟨call, hcall, hlt⟩ := hlate _ hended
    exact absurd hlt (Nat.not_lt.2 (hearly call hcall))
  | stopping _ _ _ hstopping => exact hstopping.command_of_past hpast

end Guard

/-! ## All steps -/

/-- Where the tasks of a run stand on the clock. -/
inductive Watched (p : Player) (s : Script) (d : Delays) (t : Timeline Calls Task) :
    List Fate → Prop
  | submitting {due : Nat} {x : Task} : Submitting p s d t.world.plays t.world.pulls due x →
      t.world.stops = [] → t.agenda.Perm [⟨due, 0, x⟩] → Watched p s d t []
  | refused {fate : Fate} : NeverStarts p s → t.world.stops = [] → t.agenda.Perm [] →
      Watched p s d t [fate]
  | watched {runId : Int} {known time : Nat} {lead aside : List (Entry Task)}
      {ended : List Fate} : Assigned p s d runId known t.world.plays →
      FirstCheck p.deadline p.timing.watchdogInterval known time →
      Thread p s d runId t.world.pulls lead ended →
      Guard p s d runId known time t.now ended t.world.pulls t.world.stops aside →
      t.agenda.Perm (lead ++ aside) → Watched p s d t ended

namespace Watched

variable {t : Timeline Calls Task} {e : Entry Task} {rest lead aside : List (Entry Task)}
variable {ended : List Fate}

/-- A step while the strategy is submitted. -/
theorem advance_submitting (hinterval : 0 < p.timing.watchdogInterval)
    (horder : InOrder t.now [e]) (hrun : e.run = 0)
    (h : Submitting p s d t.world.plays t.world.pulls e.due e.task) (hstops : t.world.stops = []) :
    Watched p s d (t.advance (p.machine (s.delayed d)) e []).1
      (fates (t.advance (p.machine (s.delayed d)) e []).2) := by
  obtain ⟨agenda, hperm, hadvance, hfates⟩ :=
    Timeline.advance_perm (p.machine (s.delayed d)) horder (.refl [])
  obtain ⟨hsame, hkeeps⟩ := submitting_step h
  rw [hadvance, hfates]
  rw [Player.machine_step] at hperm ⊢
  rw [hrun] at hperm
  rw [hstops] at hsame
  generalize p.step (s.delayed d) e.due t.world e.task = move at hperm hsame hkeeps ⊢
  obtain ⟨w, said, started, next⟩ := move
  rcases hkeeps with ⟨hstarted, hnext⟩ | ⟨runId, y, hassigned, hstarted, hnext, hpulling⟩
  · dsimp only at hstarted
    subst hstarted
    cases next with
    | pause millis y => exact .submitting hnext hsame hperm
    | giveWay y => exact .submitting hnext hsame hperm
    | endRun fate =>
      refine .refused hnext.1 hsame (hperm.trans ?_)
      cases fate <;> exact .refl _
    | endTask => exact hnext.elim
  · dsimp only at hstarted hnext
    subst hstarted hnext
    obtain ⟨time, hcheck, -⟩ := FirstCheck.exists_le hinterval p.deadline e.due
    refine .watched hassigned hcheck (.running hpulling) (.first hcheck hsame) ?_
    rwa [List.append_nil] at hperm

/-- A step of the leading task of a run that has started. -/
theorem advance_pulling (horder : InOrder t.now (e :: rest)) (hrun : e.run = 0)
    (hassigned : Assigned p s d runId known t.world.plays)
    (hcheck : FirstCheck p.deadline p.timing.watchdogInterval known time)
    (hpulling : Pulling p s d runId t.world.pulls e.due e.task)
    (hguard : Guard p s d runId known time t.now [] t.world.pulls t.world.stops aside)
    (hrest : rest.Perm aside) :
    Watched p s d (t.advance (p.machine (s.delayed d)) e rest).1
      (fates (t.advance (p.machine (s.delayed d)) e rest).2) := by
  obtain ⟨agenda, hperm, hadvance, hfates⟩ :=
    Timeline.advance_perm (p.machine (s.delayed d)) horder hrest
  obtain ⟨hplays, hstops, hstarted, hnext⟩ := pulling_step hpulling
  have hfirst : ∀ x ∈ aside, e.due ≤ x.due := fun x hx => horder.tail.now_le x (hrest.mem_iff.2 hx)
  rw [hadvance, hfates]
  rw [Player.machine_step] at hperm ⊢
  rw [hrun] at hperm
  rw [← hplays] at hassigned
  rw [← hstops] at hguard
  generalize p.step (s.delayed d) e.due t.world e.task = move at *
  obtain ⟨w, said, started, next⟩ := move
  dsimp only at hstarted
  subst hstarted
  cases next with
  | pause millis y =>
    exact .watched hassigned hcheck (.running hnext) (hguard.goesOn horder.due_le nofun) hperm
  | giveWay y =>
    exact .watched hassigned hcheck (.running hnext) (hguard.goesOn horder.due_le nofun) hperm
  | endRun fate =>
    obtain ⟨kind, request, hsent⟩ := hnext
    cases fate with
    | outcome o =>
      exact .watched hassigned hcheck (.finished hsent) (hguard.finish horder.due_le hfirst hsent) hperm
    | crash =>
      exact .watched hassigned hcheck (.finished hsent) (hguard.goesOn horder.due_le nofun) hperm
  | endTask => exact hnext.elim

/-- A step of the watchdog or of the stop command. -/
theorem advance_aside (horder : InOrder t.now (e :: rest))
    (hassigned : Assigned p s d runId known t.world.plays)
    (hcheck : FirstCheck p.deadline p.timing.watchdogInterval known time)
    (hthread : Thread p s d runId t.world.pulls lead ended)
    (hguard : Guard p s d runId known time t.now ended t.world.pulls t.world.stops [e])
    (hrest : rest.Perm lead) :
    Watched p s d (t.advance (p.machine (s.delayed d)) e rest).1
      (ended ++ fates (t.advance (p.machine (s.delayed d)) e rest).2) := by
  obtain ⟨agenda, hperm, hadvance, hfates⟩ :=
    Timeline.advance_perm (p.machine (s.delayed d)) horder hrest
  obtain ⟨hrun, haside, hnext⟩ := hguard.step hcheck horder.due_le
  obtain ⟨⟨-, hmeets⟩, hplays, hpulls⟩ := step_aside_delayed p s d e.due t.world haside
  rw [hadvance, hfates]
  rw [Player.machine_step] at hperm ⊢
  rw [(Next.others_of_meets _ e.run _ hmeets).1, hrun] at hperm
  rw [(Next.others_of_meets (p.machine (s.delayed d)) e.run [] hmeets).2, List.append_nil]
  rw [← hplays] at hassigned
  rw [← hpulls] at hthread hnext
  refine .watched hassigned hcheck hthread hnext (hperm.trans ?_)
  rw [← List.append_assoc]
  exact List.perm_append_comm

/-- A step of any task. -/
theorem advance (hinterval : 0 < p.timing.watchdogInterval) :
    Timeline.Kept (p.machine (s.delayed d)) (Watched p s d) := by
  intro t e rest ended h horder ht
  rw [ht] at horder
  cases h with
  | submitting h hstops hperm =>
    rw [ht] at hperm
    obtain ⟨rfl, rfl⟩ := List.cons.inj (List.perm_singleton.1 hperm)
    exact advance_submitting hinterval horder rfl h hstops
  | refused _ _ hperm =>
    rw [ht] at hperm
    cases hperm.eq_nil
  | watched hassigned hcheck hthread hguard hperm =>
    rw [ht] at hperm
    rcases List.mem_append.1 (hperm.subset List.mem_cons_self) with hlead | haside
    · cases hthread with
      | running hpulling =>
        obtain rfl := List.mem_singleton.1 hlead
        exact advance_pulling horder rfl hassigned hcheck hpulling hguard hperm.cons_inv
      | finished => cases hlead
    · obtain rfl := hguard.eq_singleton haside
      have hrest := (hperm.trans List.perm_append_comm).cons_inv
      exact advance_aside horder hassigned hcheck hthread hguard hrest

/-- No stop command is sent when there is no deadline, or no run. -/
theorem quiet (h : Watched p s d t ended) (hquiet : p.deadline = 0 ∨ NeverStarts p s) :
    t.world.stops = [] := by
  cases h with
  | submitting _ hstops _ | refused _ hstops _ => exact hstops
  | watched hassigned _ _ hguard _ =>
    obtain ⟨attempts, hends, -⟩ := hassigned
    cases hguard with
    | unwatched _ hstops | watching _ hstops | aborted hstops => exact hstops
    | stopping hdeadline _ _ _ =>
      exact hquiet.elim (absurd · hdeadline) fun hnever => absurd hends (hnever _ _)

/-- A run that gets this id is being submitted no later than its first late check, or it is led and
watched over from the time on at which the id is known. -/
theorem threads_of_ends (h : Watched p s d t ended) {attempts : Nat}
    (hends : p.retry.Ends s.plays attempts (.ok (.started runId)))
    (hcheck : FirstCheck p.deadline p.timing.watchdogInterval (attempts * d.play) time) :
    (t.world.stops = [] ∧ t.world.pulls = [] ∧ ∃ e ∈ t.agenda, e.due ≤ time) ∨
      ∃ lead aside, t.world.plays = sendTimes d.play attempts ∧
        Thread p s d runId t.world.pulls lead ended ∧
        Guard p s d runId (attempts * d.play) time t.now ended t.world.pulls t.world.stops aside ∧
        t.agenda.Perm (lead ++ aside) := by
  cases h with
  | submitting h hstops hperm =>
    obtain ⟨hpulls, hdue⟩ := h.due_le hends
    refine .inl ⟨hstops, hpulls, _, hperm.mem_iff.2 List.mem_cons_self, ?_⟩
    exact Nat.le_trans hdue hcheck.known_le
  | refused hnever _ _ => exact absurd hends (hnever _ _)
  | watched hassigned hcheck' hthread hguard hperm =>
    obtain ⟨attempts', hends', rfl, hplays⟩ := hassigned
    obtain ⟨rfl, hanswer⟩ := hends.unique hends'
    cases hanswer
    obtain rfl := hcheck.unique hcheck'
    exact .inr ⟨_, _, hplays, hthread, hguard, hperm⟩

/-- The same without the task that leads. -/
theorem of_ends (h : Watched p s d t ended) {attempts : Nat}
    (hends : p.retry.Ends s.plays attempts (.ok (.started runId)))
    (hcheck : FirstCheck p.deadline p.timing.watchdogInterval (attempts * d.play) time) :
    (t.world.stops = [] ∧ t.world.pulls = [] ∧ ∃ e ∈ t.agenda, e.due ≤ time) ∨
      ∃ lead aside, t.world.plays = sendTimes d.play attempts ∧
        Guard p s d runId (attempts * d.play) time t.now ended t.world.pulls t.world.stops aside ∧
        t.agenda.Perm (lead ++ aside) := by
  rcases h.threads_of_ends hends hcheck with hbefore | ⟨lead, aside, hplays, -, hguard, hperm⟩
  · exact .inl hbefore
  · exact .inr ⟨lead, aside, hplays, hguard, hperm⟩

end Watched

namespace Script

/-- A run with a deadline that lives past the first check after it is asked to stop at that check
and never again; a run that is over before is not, and neither is one without a deadline. The id of
the run is known when the last submission has been answered. A run is over when it has an outcome:
one whose count of attempts has run over has none, and is still watched. -/
theorem stopped_once (s : Script) (p : Player) (d : Delays)
    (hinterval : 0 < p.timing.watchdogInterval) (fuel last more : Nat) :
    let t := (s.observe p d fuel last more).1
    let ended := fates (s.observe p d fuel last more).2
    (p.deadline = 0 ∨ NeverStarts p s → t.world.stops = []) ∧
    ∀ attempts runId, p.retry.Ends s.plays attempts (.ok (.started runId)) → ∃ time,
      FirstCheck p.deadline p.timing.watchdogInterval (attempts * d.play) time ∧
      time ≤ max p.deadline (attempts * d.play) + p.timing.watchdogInterval ∧
      (t.world.pulls ≠ [] → t.world.plays = sendTimes d.play attempts) ∧
      (t.world.stops = [] ∨ StopCommand p s d runId time t.world.stops) ∧
      (∀ o, ended = [.outcome o] → (∀ call ∈ t.world.pulls, call.1 + d.pull < time) →
        t.world.stops = []) ∧
      (p.deadline ≠ 0 →
        (∀ o, ended = [.outcome o] → ∃ call ∈ t.world.pulls, time < call.1 + d.pull) →
        (∀ e ∈ t.agenda, time < e.due) → StopCommand p s d runId time t.world.stops) := by
  have hwatched := observe_kept (P := Watched p s d) (Watched.advance hinterval)
    (.submitting (.begin rfl rfl) rfl (.refl _)) fuel last more
  intro t ended
  refine ⟨hwatched.quiet, fun attempts runId hends => ?_⟩
  obtain ⟨time, hcheck, hle⟩ := FirstCheck.exists_le hinterval p.deadline (attempts * d.play)
  refine ⟨time, hcheck, hle, ?_⟩
  rcases hwatched.of_ends hends hcheck with
    ⟨hstops, hpulls, e, he, hdue⟩ | ⟨lead, aside, hplays, hguard, hperm⟩
  · exact ⟨absurd hpulls, .inl hstops, fun _ _ _ => hstops,
      fun _ _ hpast => absurd (hpast e he) (Nat.not_lt.2 hdue)⟩
  · refine ⟨fun _ => hplays, hguard.command, fun o ho hearly => ?_, fun hdeadline hlate hpast => ?_⟩
    · rw [show fates (s.observe p d fuel last more).2 = [.outcome o] from ho] at hguard
      exact hguard.quiet_of_early hearly
    · exact hguard.command_of_past hdeadline hlate fun e he =>
        hpast e (hperm.mem_iff.2 (List.mem_append_right lead he))

/-- The run of `stumbling` gets its id after 2 s, so the first check after a deadline of 3 s is the
one at 7 s, and the run then lives for another second. Its stop command takes a second call. -/
theorem stopped_once_stumbling :
    let p : Player := ⟨3000, true, .standard, .forever⟩
    let d : Delays := ⟨1000, 0, 200⟩
    FirstCheck 3000 5000 2000 7000 ∧
      (∃ call ∈ (stumbling.observe p d 60 20000 20).1.world.pulls, 7000 < call.1 + d.pull) ∧
      (stumbling.observe p d 60 20000 20).1.world.stops = [(7000, 7), (7200, 7)] ∧
      StopCommand p stumbling d 7 7000 [(7000, 7), (7200, 7)] := by
  intro p d
  have hcheck : FirstCheck 3000 5000 2000 7000 := by
    refine ⟨⟨1, rfl⟩, by decide, ?_⟩
    rintro _ ⟨k, rfl⟩ hlate
    omega
  have hlate : ∃ call ∈ (stumbling.observe p d 60 20000 20).1.world.pulls,
      7000 < call.1 + d.pull := by decide +kernel
  have hpast : ∀ e ∈ (stumbling.observe p d 60 20000 20).1.agenda, 7000 < e.due := by
    decide +kernel
  have hstops : (stumbling.observe p d 60 20000 20).1.world.stops = [(7000, 7), (7200, 7)] := by
    decide +kernel
  have hends : p.retry.Ends stumbling.plays 2 (.ok (.started 7)) := ⟨2, rfl⟩
  obtain ⟨-, hrun⟩ := stopped_once stumbling p d (by decide) 60 20000 20
  obtain ⟨time, hfirst, -, -, -, -, hcommand⟩ := hrun 2 7 hends
  obtain rfl := hfirst.unique hcheck
  have hstop := hcommand (by decide) (fun _ _ => hlate) hpast
  rw [hstops] at hstop
  exact ⟨hcheck, hlate, hstops, hstop⟩

end Script

end LoadProbe
