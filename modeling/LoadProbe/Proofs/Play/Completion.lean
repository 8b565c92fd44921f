import LoadProbe.Proofs.Clock.Progress
import LoadProbe.Proofs.Play.Outcome

/-!
# Runs with finitely many calls come to an end

Beside its plays and pulls a run has its watchdog, which looks at the clock until the deadline has
passed, and the attempts of one stop, which are counted in a word. So a run that makes no more than
so many plays and pulls, wherever it stands, ends (`Script.play_ends`).
-/

namespace LoadProbe

open Facade Feed Pass

/-- How many plays and pulls have been made. -/
def Calls.commands (w : Calls) : Nat :=
  w.plays.length + w.pulls.length

/-- The work of a task of a run that makes at most `bound` plays and pulls: twice the calls that are
left, and until the run has started that of its watchdog as well. -/
def Player.work (p : Player) (bound : Nat) (w : Calls) (due : Nat) : Task → Nat
  | .begin => p.deadline + 2 ^ 33 + 2 * (bound - w.commands) + 7
  | .submit _ _ => p.deadline + 2 ^ 33 + 2 * (bound - w.commands) + 6
  | .submitted _ _ => p.deadline + 2 ^ 33 + 2 * (bound + 1 - w.commands) + 5
  | .pull _ _ _ _ => 2 * (bound - w.commands) + 2
  | .pulled _ _ _ _ => 2 * (bound + 1 - w.commands) + 1
  | .watch run => p.deadline + run.started + 1 - due + 2 ^ 33 + 3
  | .stop _ attempt => 2 * (2 ^ 32 - attempt.toNat) + 2
  | .stopping _ attempt => 2 * (2 ^ 32 - attempt.toNat) + 1

variable {p : Player} {s : Script} {w : Calls} {bound now : Nat}

/-! ## The calls that a step makes -/

@[simp] theorem Calls.commands_play (w : Calls) (time : Nat) :
    Calls.commands { w with plays := w.plays ++ [time] } = w.commands + 1 := by
  simp only [Calls.commands, List.length_append, List.length_singleton]
  omega

@[simp] theorem Calls.commands_pull (w : Calls) (call : Nat × Request) :
    Calls.commands { w with pulls := w.pulls ++ [call] } = w.commands + 1 := by
  simp only [Calls.commands, List.length_append, List.length_singleton]
  omega

/-- No step takes a call back. -/
theorem commands_le_step (p : Player) (s : Script) (now : Nat) (w : Calls) (x : Task) :
    w.commands ≤ (p.step s.gateway now w x).world.commands := by
  cases hlead : x.leads with
  | false =>
    obtain ⟨-, hplays, hpulls⟩ := step_aside p s now w hlead
    rw [Calls.commands, Calls.commands, hplays, hpulls]
  | true =>
    cases x with
    | begin => exact Nat.le_refl _
    | submit started attempt =>
      exact (Nat.le_succ _).trans (w.commands_play now).ge
    | submitted started attempt =>
      rw [Player.step, Player.afterSubmission_world]
      rfl
    | pull run kind request attempt =>
      exact (Nat.le_succ _).trans (w.commands_pull (now, request)).ge
    | pulled run kind request attempt =>
      rw [Player.step, Player.afterPull_world]
      rfl
    | watch | stop | stopping => cases hlead

/-! ## The work that a step spends -/

/-- More calls leave no more work. -/
theorem Player.work_le (p : Player) (bound : Nat) {w w' : Calls} (h : w.commands ≤ w'.commands)
    (due : Nat) (x : Task) : p.work bound w' due x ≤ p.work bound w due x := by
  cases x <;> simp only [Player.work] <;> omega

/-- A step of the watchdog or of a stop. -/
theorem spends_aside (hwatch : 0 < p.timing.watchdogInterval) (s : Script) (bound now : Nat)
    (w : Calls) {x : Task} (h : x.leads = false) :
    (p.step s.gateway now w x).Spends (p.work bound) now (p.work bound w now x) := by
  cases x with
  | begin | submit | submitted | pull | pulled => cases h
  | watch run =>
    unfold Player.step
    dsimp only
    split
    · have hfirst : (1 : UInt32).toNat = 1 := rfl
      rw [Move.Spends, List.map_singleton, List.sum_singleton]
      simp only [Player.work, Next.work, hfirst]
      omega
    · refine Move.spends_of_nil ?_
      simp only [Next.work, Player.work]
      omega
  | stop runId attempt => exact Move.spends_of_nil (Nat.lt_succ_self _)
  | stopping runId attempt =>
    unfold Player.step Player.afterStop
    dsimp only [Script.gateway]
    cases s.stops (w.stops.length - 1) with
    | ok => exact Move.spends_of_nil (Nat.succ_pos _)
    | error e =>
      dsimp only
      cases hafter : p.retry.after .transport attempt e with
      | again next =>
        have hnext := Policy.toNat_of_again hafter
        have hlt := next.toNat_lt
        refine Move.spends_of_nil ?_
        simp only [Next.work, Player.work]
        omega
      | giveUp | overflow => exact Move.spends_of_nil (Nat.succ_pos _)

/-- The step that reads the answer to a play call. -/
theorem spends_afterSubmission (p : Player) (hle : w.commands ≤ bound) (attempt : UInt32)
    (answer : Except Failure PlayAnswer) :
    (p.afterSubmission 0 0 attempt w answer).Spends (p.work bound) 0
      (p.work bound w 0 (.submitted 0 attempt)) := by
  fun_cases Player.afterSubmission p 0 0 attempt w answer with
  | case1 runId run =>
    have hwatchers : ((p.watchers run).map (p.work bound w 0)).sum ≤ p.deadline + 2 ^ 33 + 4 := by
      unfold Player.watchers
      split
      · exact Nat.zero_le _
      · rw [List.map_singleton, List.sum_singleton]
        simp only [Player.work, run]
        omega
    simp only [Move.Spends, Next.work, Player.work]
    omega
  | case3 e next =>
    refine Move.spends_of_nil ?_
    simp only [Next.work, Player.work]
    omega
  | _ => exact Move.spends_of_nil (Nat.succ_pos _)

/-- The step that reads the answer to a pull call. -/
theorem spends_afterPull (p : Player) (hle : w.commands ≤ bound) (now : Nat) (run : Accepted)
    (kind : PullKind) (request : Request) (attempt : UInt32) (answer : Except Failure Returns) :
    (p.afterPull now run kind request attempt w answer).Spends (p.work bound) now
      (p.work bound w now (.pulled run kind request attempt)) := by
  have hpull : 2 * (bound - w.commands) + 2 < 2 * (bound + 1 - w.commands) + 1 := by omega
  fun_cases Player.afterPull p now run kind request attempt w answer with
  | case1 returns =>
    fun_cases Player.afterPoll p now run request returns w with
    | case2 => exact Move.spends_of_nil (Nat.succ_pos _)
    | _ => exact Move.spends_of_nil hpull
  | case3 => exact Move.spends_of_nil hpull
  | _ => exact Move.spends_of_nil (Nat.succ_pos _)

/-- A step of the leading task. -/
theorem spends_leading (hbound : ∀ plays pulls now x, Stage p s plays pulls now x →
      plays.length + pulls.length ≤ bound) {x : Task} (h : Stage p s w.plays w.pulls now x) :
    (p.step s.gateway now w x).Spends (p.work bound) now (p.work bound w now x) := by
  have hle : w.commands ≤ bound := hbound _ _ _ _ h
  cases h with
  | begin => exact Move.spends_of_nil (Nat.lt_succ_self _)
  | submit =>
    refine Move.spends_of_nil ?_
    simp only [Next.work, Player.work, Script.gateway, Calls.commands_play]
    omega
  | submitted => exact spends_afterSubmission p hle _ _
  | pull =>
    refine Move.spends_of_nil ?_
    simp only [Next.work, Player.work, Script.gateway, Calls.commands_pull]
    omega
  | pulled => exact spends_afterPull p hle _ _ _ _ _ _

/-- A run ends when it makes no more than so many plays and pulls, wherever it stands. -/
theorem Script.play_ends (hwatch : 0 < p.timing.watchdogInterval)
    (hbound : ∀ plays pulls now x, Stage p s plays pulls now x →
      plays.length + pulls.length ≤ bound) :
    ∃ enough, ∀ fuel ≥ enough, ∃ fate, fates (s.play p fuel).2 = [fate] := by
  have hprogress : (p.machine s.gateway).Progresses Task.leads
      (fun now w => Stage p s w.plays w.pulls now) (p.work bound) := {
    leading h := spends_leading hbound h
    aside now w _ h := spends_aside hwatch s bound now w h
    others now w x due y := p.work_le bound (commands_le_step p s now w x) due y }
  obtain ⟨hstands, horder⟩ := Timeline.Stands.launch (p.led s) (w := ⟨[], [], []⟩) (.begin rfl rfl)
  exact ⟨_, fun fuel hfuel => hstands.ends (p.led s) hprogress fuel horder hfuel⟩

end LoadProbe
