import LoadProbe.Proofs.Play.Standing

/-!
# What is sent after the outcome of a run

When a run has ended with an outcome, its watchdog is gone, and so is the task that played and
pulled. A stop command that the watchdog had started before is not: it goes on until it has made all
the calls that it takes. `Script.after_outcome` says what is still sent after the outcome, in
whatever order the tasks make their steps, and when this is nothing; `Script.stops_after_outcome` is
a run that is asked to stop once more after its outcome.
-/

namespace LoadProbe

open Facade Feed Pass
open Rehearsal.ScriptedServer (Delays)

variable {p : Player} {s : Script} {d : Delays} {t t' : Timeline Calls Task} {calls : Nat}
variable {runId : Int} {ended : List Fate} {o : Outcome}

/-- After an outcome no task is left, or the stop command alone. -/
theorem Standing.of_outcome (h : Standing p s t [.outcome o]) :
    (t.agenda = [] ∧ t.world.stops = []) ∨
      ∃ runId, Obtained p s runId t.world.plays ∧ p.deadline ≠ 0 ∧
        Calling p s runId t.world.stops t.agenda := by
  cases h with
  | refused _ hstops hnone | quiet _ hstops hnone => exact .inl ⟨hnone, hstops⟩
  | calling hobtained hdeadline hcalling => exact .inr ⟨_, hobtained, hdeadline, hcalling⟩

namespace Calling

/-- However many steps the stop command makes, nothing but its calls is sent. -/
theorem turns (h : Calling p s runId t.world.stops t.agenda)
    (hturns : s.Turns p d t t' ended) :
    Calling p s runId t'.world.stops t'.agenda ∧ ended = [] ∧
      t'.world.plays = t.world.plays ∧ t'.world.pulls = t.world.pulls ∧
      t.world.stops <+: t'.world.stops := by
  have hkept := hturns.invariant
    (P := fun t' ended => Calling p s runId t'.world.stops t'.agenda ∧ ended = [] ∧
      t'.world.plays = t.world.plays ∧ t'.world.pulls = t.world.pulls ∧
      t.world.stops <+: t'.world.stops)
    (fun {_ _ _ _} ⟨hcalling, hended, hplays, hpulls, hstops⟩ hagenda => by
      obtain ⟨hnext, hfates, hplays', hpulls', hstops', -⟩ := hcalling.advance (d := d) hagenda
      exact ⟨hnext, by rw [hended, hfates]; rfl, hplays'.trans hplays, hpulls'.trans hpulls,
        hstops.trans hstops'⟩)
    ⟨h, rfl, rfl, rfl, List.prefix_refl _⟩
  rwa [List.nil_append] at hkept

/-- The stop command makes no more calls than it takes, and all of them for its run. -/
theorem calls_le {stops : List (Nat × Int)} {aside : List (Entry Task)}
    (h : Calling p s runId stops aside) (htakes : p.retry.Takes s.stops calls) :
    stops.length ≤ calls ∧ ∀ call ∈ stops, call.2 = runId := by
  have hall : ∃ made ≤ calls, AllStop runId made stops := by
    cases h with
    | stop hreach hcalls => exact ⟨_, Nat.le_of_lt (htakes.lt_of_reaches hreach), hcalls⟩
    | stopping hreach hcalls => exact ⟨_, htakes.lt_of_reaches hreach, hcalls⟩
    | stopped htakes' hcalls => exact ⟨_, Nat.le_of_eq (htakes'.unique htakes), hcalls⟩
  obtain ⟨made, hle, hcalls⟩ := hall
  refine ⟨hcalls.length.symm ▸ hle, fun call hcall => ?_⟩
  have hmem := List.mem_map_of_mem (f := Prod.snd) hcall
  rw [hcalls] at hmem
  exact List.eq_of_mem_replicate hmem

/-- The stop command comes to its end. -/
theorem finishes (d : Delays) (h : Calling p s runId t.world.stops t.agenda)
    (htakes : p.retry.Takes s.stops calls) :
    ∃ t', s.Turns p d t t' [] ∧ t'.agenda = [] ∧
      t'.world.stops.length = calls := by
  induction hwork : stopWork calls t.world.stops t.agenda using Nat.strong_induction_on
    generalizing t with
  | _ work ih =>
    cases hagenda : t.agenda with
    | nil =>
      rw [hagenda] at h
      cases h with
      | stopped htakes' hcalls =>
        exact ⟨t, .refl, hagenda, hcalls.length.trans (htakes'.unique htakes)⟩
    | cons e rest =>
      have hperm : t.agenda.Perm (e :: rest) := .of_eq hagenda
      obtain ⟨hnext, hfates, -, -, -, hlt⟩ := h.advance (d := d) hperm
      obtain ⟨t', hturns, hnone, hlength⟩ := ih _ (hwork ▸ hlt calls htakes) hnext rfl
      have hall := (Timeline.Turns.single hperm).trans hturns
      rw [hfates] at hall
      exact ⟨t', hall, hnone, hlength⟩

end Calling

namespace Script

/-- In whatever order the tasks of a run make their steps, after its outcome no play and no pull is
sent any more, and it ends no second time. Stop calls may still be sent: those that are left of one
stop command for this run, up to the number of calls that it takes. Nothing at all is sent any more
exactly when no task is left or the last of these calls has been sent; the stop command, when there
is one, does come to its last call. Without a deadline there is none. -/
theorem after_outcome (s : Script) (p : Player) (d : Delays) {t : Timeline Calls Task} {o : Outcome}
    (h : s.Turns p d (s.launched p d) t [.outcome o]) :
    ∃ calls, p.retry.Takes s.stops calls ∧
      (∀ t' ended, s.Turns p d t t' ended →
        ended = [] ∧ t'.world.plays = t.world.plays ∧ t'.world.pulls = t.world.pulls ∧
        t.world.stops <+: t'.world.stops ∧ t'.world.stops.length ≤ calls ∧
        ∀ call ∈ t'.world.stops, Obtained p s call.2 t.world.plays) ∧
      ((∀ t' ended, s.Turns p d t t' ended → t'.world = t.world) ↔
        t.agenda = [] ∨ t.world.stops.length = calls) ∧
      (∃ t', s.Turns p d t t' [] ∧ t'.agenda = [] ∧
        (t.agenda ≠ [] → t'.world.stops.length = calls)) ∧
      (p.deadline = 0 → t.agenda = []) := by
  obtain ⟨calls, htakes⟩ := p.retry.exists_takes s.stops
  refine ⟨calls, htakes, ?_⟩
  rcases (Standing.of_turns h).of_outcome with
    ⟨hnone, hstops⟩ | ⟨runId, hobtained, hdeadline, hcalling⟩
  · have hstill : ∀ t' ended, s.Turns p d t t' ended → t' = t ∧ ended = [] :=
      fun t' ended hturns => hturns.eq_of_nil hnone
    refine ⟨fun t' ended hturns => ?_, ?_, ⟨t, .refl, hnone, absurd hnone⟩, fun _ => hnone⟩
    · obtain ⟨rfl, rfl⟩ := hstill t' ended hturns
      rw [hstops]
      exact ⟨rfl, rfl, rfl, List.prefix_refl _, Nat.zero_le _, nofun⟩
    · exact iff_of_true (fun t' ended hturns => congrArg _ (hstill t' ended hturns).1) (.inl hnone)
  · obtain ⟨last, hlast, hover, hlength⟩ := hcalling.finishes d htakes
    refine ⟨fun t' ended hturns => ?_, ⟨fun hquiet => .inr ?_, ?_⟩,
      ⟨last, hlast, hover, fun _ => hlength⟩, fun hzero => absurd hzero hdeadline⟩
    · obtain ⟨hcalling', hended, hplays, hpulls, hprefix⟩ := hcalling.turns hturns
      obtain ⟨hle, hid⟩ := hcalling'.calls_le htakes
      exact ⟨hended, hplays, hpulls, hprefix, hle, fun call hcall => hid call hcall ▸ hobtained⟩
    · rw [← hquiet last [] hlast]
      exact hlength
    · rintro (hnone | hall) t' ended hturns
      · rw [(hturns.eq_of_nil hnone).1]
      · -- All calls have been sent, so the stops that come after are the same.
        obtain ⟨hcalling', -, hplays, hpulls, hprefix⟩ := hcalling.turns hturns
        have hstops := hprefix.eq_of_length_le (hall.symm ▸ (hcalling'.calls_le htakes).1)
        obtain ⟨now, agenda, runs, w⟩ := t'
        obtain ⟨plays, pulls, stops⟩ := w
        dsimp only at hplays hpulls hstops
        rw [hplays, hpulls, ← hstops]

/-- A server that starts run 7 at once, reports that it is running, and then a normal exit. It
answers the first stop call so, and accepts any further one. -/
def brief (first : Except Failure Unit) : Script where
  plays _ := .ok (.started 7)
  pulls n _ := .ok ⟨some (if n = 0 then "Running" else "NormalExit"), .empty⟩
  stops
    | 0 => first
    | _ => .ok ()

/-- When its first call is lost, the stop command takes two. -/
theorem brief_takes : Policy.forever.Takes (brief (.error .transport)).stops 2 := by
  have hfail : ∀ i (h : i < [Failure.transport].length),
      (brief (.error .transport)).stops i = .error [Failure.transport][i] := by
    intro i h
    obtain rfl := Nat.lt_one_iff.1 h
    rfl
  exact (Policy.forever_takes hfail rfl (by decide)).1

/-- The run on this server when it has just ended. It is watched with a deadline of 3 s, its first
stop call is lost after 1 s, and its pulls take 100 ms each. -/
def briefly : Timeline Calls Task × List Event :=
  let p := Player.standard 3000 true
  let s := brief (.error .transport)
  let d : Delays := ⟨0, 100, 1000⟩
  (s.launched p d).untilEnded (p.machine (s.delayed d)) 40 1

theorem briefly_turns :
    let p := Player.standard 3000 true
    let s := brief (.error .transport)
    let d : Delays := ⟨0, 100, 1000⟩
    s.Turns p d (s.launched p d) briefly.1 [.outcome ⟨.success, 5300⟩] := by
  have hended : fates briefly.2 = [.outcome ⟨.success, 5300⟩] := by decide +kernel
  rw [← hended]
  exact Timeline.untilEnded_turns ..

/-- When this run ends after 5.3 s, the stop call that was sent after 5 s has not been answered yet,
so that one more may be sent. -/
theorem after_outcome_briefly :
    briefly.1.world.stops = [(5000, 7)] ∧ briefly.1.agenda ≠ [] ∧
      ¬∀ t' ended, (brief (.error .transport)).Turns (.standard 3000 true) ⟨0, 100, 1000⟩
        briefly.1 t' ended → t'.world = briefly.1.world := by
  have hstops : briefly.1.world.stops = [(5000, 7)] := by decide +kernel
  have hagenda : briefly.1.agenda ≠ [] := by
    have hlength : briefly.1.agenda.length = 1 := by decide +kernel
    exact List.ne_nil_of_length_eq_add_one hlength
  obtain ⟨calls, htakes, -, hquiet, -, -⟩ := after_outcome _ _ _ briefly_turns
  obtain rfl := htakes.unique brief_takes
  refine ⟨hstops, hagenda, fun hall => ?_⟩
  rcases hquiet.1 hall with hnone | hlength
  · exact hagenda hnone
  · rw [hstops] at hlength
    cases hlength

/-- It is sent after 6 s: the run is asked to stop 700 ms after its outcome. -/
theorem stops_after_outcome :
    let p := Player.standard 3000 true
    let s := brief (.error .transport)
    let d : Delays := ⟨0, 100, 1000⟩
    ∃ t later, s.Turns p d (s.launched p d) t [.outcome ⟨.success, 5300⟩] ∧
      s.Turns p d t later [] ∧
      t.world.stops = [(5000, 7)] ∧ later.world.stops = [(5000, 7), (6000, 7)] := by
  intro p s d
  have hturns := briefly.1.untilTime_turns (p.machine (s.delayed d)) 6000 2
  have hlater : fates (briefly.1.untilTime (p.machine (s.delayed d)) 6000 2).2 = [] := by
    decide +kernel
  rw [hlater] at hturns
  exact ⟨briefly.1, _, briefly_turns, hturns, by decide +kernel, by decide +kernel⟩

end Script

end LoadProbe
