import LoadProbe.Proofs.Play.Silence
import LoadProbe.Proofs.Play.Watchdog

/-!
# How often a run is asked to stop

The stop command that the watchdog has started is issued again after a failure of the transport, and
after no other failure. So it takes one call for each loss in a row, and one more, whether this one
is accepted or not. `Script.stop_reissued` counts its calls: the times come from where the tasks
stand on the clock (`Watched`), and that none is left out from where they stand in any order
(`Standing`). `Script.stop_given_up` is a run whose stop is not accepted, and which is not asked
again.
-/

namespace LoadProbe

open Facade Feed Pass
open Rehearsal.ScriptedServer (Delays)

variable {p : Player} {s : Script} {d : Delays} {t : Timeline Calls Task} {calls time : Nat}
variable {runId : Int} {ended : List Fate} {stops : List (Nat × Int)} {aside : List (Entry Task)}

/-! ## The end of the stop command -/

/-- A stop command that has no task on the clock any more has made all its calls. -/
theorem Calling.takes (h : Calling p s runId stops aside)
    (hnone : ∀ e ∈ aside, e.task.leads = true) : p.retry.Takes s.stops stops.length := by
  cases h with
  | stop | stopping => cases hnone _ List.mem_cons_self
  | stopped htakes hcalls => exact hcalls.length.symm ▸ htakes

theorem Beside.takes (h : Beside p s runId stops aside) (hsent : stops ≠ [])
    (hnone : ∀ e ∈ aside, e.task.leads = true) : p.retry.Takes s.stops stops.length := by
  cases h with
  | idle hstops | watching _ hstops => exact absurd hstops hsent
  | calling _ hcalling => exact hcalling.takes hnone

theorem Standing.takes (h : Standing p s t ended) (hsent : t.world.stops ≠ [])
    (hnone : ∀ e ∈ t.agenda, e.task.leads = true) :
    p.retry.Takes s.stops t.world.stops.length := by
  cases h with
  | submitting _ hstops | refused _ hstops | quiet _ hstops => exact absurd hstops hsent
  | pulling _ _ hbeside hperm =>
    exact hbeside.takes hsent fun e he =>
      hnone e (hperm.mem_iff.2 (List.mem_cons_of_mem _ he))
  | crashed _ hbeside hperm =>
    exact hbeside.takes hsent fun e he => hnone e (hperm.mem_iff.2 he)
  | calling _ _ hcalling => exact hcalling.takes hnone

theorem Thread.leads {pulls : List (Nat × Request)} {lead : List (Entry Task)}
    (h : Thread p s d runId pulls lead ended) : ∀ e ∈ lead, e.task.leads = true := by
  cases h with
  | running hpulling => cases hpulling <;> exact List.forall_mem_singleton.2 rfl
  | finished => exact nofun

/-- Once the clock is past the time of its last call, the stop command has made all its calls. -/
theorem Stopping.complete (h : Stopping p s d runId time stops aside)
    (htakes : p.retry.Takes s.stops calls)
    (hpast : ∀ e ∈ aside, time + calls * d.stop < e.due)
    (hover : aside = [] → stops ≠ [] → p.retry.Takes s.stops stops.length) :
    stops = stopCalls d runId time calls := by
  cases h with
  | @stop made due attempt hreach _ _ hdue =>
    have hlt : time + calls * d.stop < due := hpast _ List.mem_cons_self
    have hle := Nat.mul_le_mul_right d.stop (Nat.le_of_lt (htakes.lt_of_reaches hreach))
    omega
  | @stopping made due attempt hreach _ hdue =>
    have hlt : time + calls * d.stop < due := hpast _ List.mem_cons_self
    have hle := Nat.mul_le_mul_right d.stop (htakes.lt_of_reaches hreach)
    rw [Nat.succ_eq_add_one] at hle
    omega
  | stopped hcommand =>
    have hall := (hover rfl hcommand.ne_nil).unique htakes
    obtain ⟨made, attempt, -, rfl⟩ := hcommand
    rw [length_stopCalls] at hall
    rw [hall]

/-- The stop calls of a run are the first ones of its stop command. -/
theorem Watched.sent (h : Watched p s d t ended) {attempts : Nat}
    (hends : p.retry.Ends s.plays attempts (.ok (.started runId)))
    (hcheck : FirstCheck p.deadline p.timing.watchdogInterval (attempts * d.play) time)
    (htakes : p.retry.Takes s.stops calls) :
    ∃ made ≤ calls, t.world.stops = stopCalls d runId time made := by
  have hcommand : t.world.stops = [] ∨ StopCommand p s d runId time t.world.stops := by
    rcases h.of_ends hends hcheck with ⟨hstops, -, -⟩ | ⟨_, _, -, hguard, -⟩
    · exact .inl hstops
    · exact hguard.command
  rcases hcommand with hstops | ⟨made, attempt, hreach, hstops⟩
  · exact ⟨0, Nat.zero_le _, hstops⟩
  · exact ⟨made + 1, htakes.lt_of_reaches hreach, hstops⟩

/-- All of them have been sent to a run that lives past its first late check, once the clock is past
the time of the last one. -/
theorem Watched.complete (h : Watched p s d t ended) (hstanding : Standing p s t ended)
    {attempts : Nat} (hends : p.retry.Ends s.plays attempts (.ok (.started runId)))
    (hcheck : FirstCheck p.deadline p.timing.watchdogInterval (attempts * d.play) time)
    (htakes : p.retry.Takes s.stops calls) (hdeadline : p.deadline ≠ 0)
    (hlate : ∀ o, ended = [.outcome o] → ∃ call ∈ t.world.pulls, time < call.1 + d.pull)
    (hpast : ∀ e ∈ t.agenda, time + calls * d.stop < e.due) :
    t.world.stops = stopCalls d runId time calls := by
  rcases h.threads_of_ends hends hcheck with
    ⟨-, -, e, he, hdue⟩ | ⟨lead, aside, -, hthread, hguard, hperm⟩
  · have := hpast e he
    omega
  · have hpast : ∀ e ∈ aside, time + calls * d.stop < e.due := fun e he =>
      hpast e (hperm.mem_iff.2 (List.mem_append_right lead he))
    cases hguard with
    | unwatched hnone _ => exact absurd hnone hdeadline
    | watching _ _ _ _ hdue =>
      have := hpast _ List.mem_cons_self
      dsimp only at this
      omega
    | aborted _ hended hearly =>
      obtain ⟨call, hcall, hlt⟩ := hlate _ hended
      exact absurd hlt (Nat.not_lt.2 (hearly call hcall))
    | stopping _ _ _ hstopping =>
      refine hstopping.complete htakes hpast fun hnone hsent => hstanding.takes hsent ?_
      intro e he
      rw [hnone, List.append_nil] at hperm
      exact hthread.leads e (hperm.mem_iff.1 he)

namespace Script

theorem observe_turns (s : Script) (p : Player) (d : Delays) (fuel last more : Nat) :
    s.Turns p d (s.launched p d) (s.observe p d fuel last more).1
      (fates (s.observe p d fuel last more).2) := by
  have h := (Timeline.untilEnded_turns (p.machine (s.delayed d)) (s.launched p d) fuel 1).trans
    (Timeline.untilTime_turns _ _ last more)
  rwa [← fates_append] at h

/-- A run that is over its deadline at the first check after it is asked to stop then, and again
when a call has been lost, until it has been asked as often as the stop command takes calls. Under
the policy without a limit this is one call for each loss up to the first answer of another kind,
and one for that answer. When some calls fail and the one after them would be accepted, this one is
made exactly when all the failures are losses, although the same policy with retries for every
failure would make it in any case. -/
theorem stop_reissued (s : Script) (p : Player) (d : Delays)
    (hinterval : 0 < p.timing.watchdogInterval) {attempts : Nat} {runId : Int}
    (hends : p.retry.Ends s.plays attempts (.ok (.started runId))) (fuel last more : Nat) :
    let t := (s.observe p d fuel last more).1
    let ended := fates (s.observe p d fuel last more).2
    ∃ time calls, FirstCheck p.deadline p.timing.watchdogInterval (attempts * d.play) time ∧
      p.retry.Takes s.stops calls ∧
      (∃ made ≤ calls, t.world.stops = stopCalls d runId time made) ∧
      (p.deadline ≠ 0 →
        (∀ o, ended = [.outcome o] → ∃ call ∈ t.world.pulls, time < call.1 + d.pull) →
        (∀ e ∈ t.agenda, time + calls * d.stop < e.due) →
        t.world.stops = stopCalls d runId time calls) ∧
      (p.retry = .forever → ∀ failures : List Failure,
        (∀ i (h : i < failures.length), s.stops i = .error failures[i]) →
        s.stops failures.length = .ok () → failures.length + 1 < 2 ^ 32 →
        calls = (failures.takeWhile Failure.isTransport).length + 1 ∧
        (calls = failures.length + 1 ↔ ∀ e ∈ failures, e.isTransport = true) ∧
        p.retry.run .anyFailure s.stops (failures.length + 1) =
          some (.result (failures.length + 1) (.ok ()))) := by
  intro t ended
  have hwatched := observe_kept (P := Watched p s d) (Watched.advance hinterval)
    (.submitting (.begin rfl rfl) rfl (.refl _)) fuel last more
  have hstanding := Standing.of_turns (s.observe_turns p d fuel last more)
  obtain ⟨time, hcheck, -⟩ := FirstCheck.exists_le hinterval p.deadline (attempts * d.play)
  obtain ⟨calls, htakes⟩ := p.retry.exists_takes s.stops
  refine ⟨time, calls, hcheck, htakes, hwatched.sent hends hcheck htakes,
    hwatched.complete hstanding hends hcheck htakes, ?_⟩
  intro hforever failures hfail hok hword
  rw [hforever] at htakes ⊢
  obtain ⟨hexact, hany⟩ := Policy.forever_takes hfail hok hword
  obtain rfl := htakes.unique hexact
  refine ⟨rfl, ?_, hany⟩
  rw [Nat.add_right_cancel_iff, ← List.takeWhile_eq_self_iff]
  constructor
  · exact (List.takeWhile_prefix _).eq_of_length
  · exact congrArg List.length

/-- A run that is watched from its start on is over a deadline of 3 s at the check after 5 s. -/
theorem firstCheck_brief : FirstCheck 3000 5000 0 5000 := by
  refine ⟨⟨1, rfl⟩, by decide, ?_⟩
  rintro _ ⟨k, rfl⟩ hlate
  omega

/-- A run whose first stop call is lost is asked to stop a second time. -/
theorem stop_reissued_brief :
    let t := ((brief (.error .transport)).observe (.standard 3000 true) ⟨0, 100, 200⟩
      60 20000 20).1
    t.world.stops = stopCalls ⟨0, 100, 200⟩ 7 5000 2 ∧
      t.world.stops = [(5000, 7), (5200, 7)] := by
  intro t
  have hends : Policy.forever.Ends (brief (.error .transport)).plays 1 (.ok (.started 7)) :=
    Policy.ends_of_first_ok _ rfl
  have hlate : ∃ call ∈ t.world.pulls, 5000 < call.1 + 100 := by decide +kernel
  have hpast : ∀ e ∈ t.agenda, 5000 + 2 * 200 < e.due := by decide +kernel
  obtain ⟨time, calls, hfirst, htakes, -, hcomplete, -⟩ :=
    stop_reissued (brief (.error .transport)) (.standard 3000 true) ⟨0, 100, 200⟩ (by decide)
      hends 60 20000 20
  obtain rfl := hfirst.unique firstCheck_brief
  obtain rfl := htakes.unique brief_takes
  have hstops := hcomplete (by decide) (fun _ _ => hlate) hpast
  exact ⟨hstops, hstops⟩

/-- A run whose first stop call is answered by a gateway in the place of the server is over its
deadline of 3 s at the check after 5 s, and lives on. It is asked to stop then, and not again, and
nothing is left on the clock that could ask: the stop is never accepted, although the second call
would be. -/
theorem stop_given_up :
    let s := brief (.error (.api 502 "bad gateway"))
    let t := (s.observe (.standard 3000 true) ⟨0, 100, 0⟩ 60 20000 20).1
    FirstCheck 3000 5000 0 5000 ∧ (∃ call ∈ t.world.pulls, 5000 < call.1) ∧
      t.world.stops = [(5000, 7)] ∧ t.agenda = [] ∧ s.stops 1 = .ok () ∧
      Policy.forever.run .anyFailure s.stops 2 = some (.result 2 (.ok ())) := by
  intro s t
  have hlate : ∃ call ∈ t.world.pulls, 5000 < call.1 := by decide +kernel
  have hstops : t.world.stops = [(5000, 7)] := by decide +kernel
  have hagenda : t.agenda = [] := List.eq_nil_of_length_eq_zero (by decide +kernel)
  exact ⟨firstCheck_brief, hlate, hstops, hagenda, rfl, rfl⟩

end Script

end LoadProbe
