import LoadProbe.Proofs.Pass.Best
import LoadProbe.Proofs.Pass.Capacity
import LoadProbe.Proofs.Plan
import LoadProbe.Scenario

/-!
# What a report means

The first trial decides whether there is a baseline (`Baseline.measure_of_failed`,
`Baseline.measure_of_succeeded`): when it does not succeed, it is the only run that is launched
(`Scenario.run_of_failed`), as a launcher that notes what it launches shows (`Launcher.logged`).
Otherwise the best number of executors of the passes is reported (`Scenario.run_of_mean`).
-/

namespace LoadProbe

open Pass

/-! ## Launches -/

/-- Something that was launched, and what came of it. -/
inductive Launch where
  /-- One run on its own. -/
  | alone (fate : Fate)
  /-- The runs of a pass. -/
  | together (events : List Event)

/-- The launcher that also notes what it launches. -/
def Pass.Launcher.logged {σ : Type} (l : Launcher σ) : Launcher (σ × List Launch) where
  single w :=
    let (v, said, fate) := l.single w.1
    ((v, w.2 ++ [.alone fate]), said, fate)
  together w count :=
    let (v, events) := l.together w.1 count
    ((v, w.2 ++ [.together events]), events)
  complete w count := l.complete w.1 count

/-- The run has ended as a success. -/
def Fate.succeeded : Fate → Bool
  | .outcome o => o.status.isSuccess
  | .crash => false

/-! ## The baseline -/

namespace Baseline

variable {σ : Type} {l : Launcher σ} {limit : Nat} {w : σ}

/-- A trial that does not succeed ends the measurement. -/
theorem trials_of_failure {o : Outcome} (ho : (l.single w).2.2 = .outcome o)
    (hs : o.status.isSuccess = false) (remaining runs : Nat) (total : UInt64) :
    trials l limit (remaining + 1) runs total w = ((l.single w).1, soFar total runs,
      (l.single w).2.1 ++ [.trialFailed (runs + 1) o.status o.millis]) := by
  rw [trials]
  generalize l.single w = first at ho ⊢
  obtain ⟨v, said, fate⟩ := first
  simp only at ho
  subst ho
  simp only [hs, Bool.false_eq_true, if_false]

/-- After a trial that succeeds the others are made, with its time added. -/
theorem trials_of_success {o : Outcome} (ho : (l.single w).2.2 = .outcome o)
    (hs : o.status.isSuccess = true) (remaining runs : Nat) (total : UInt64) :
    let rest := trials l limit remaining (runs + 1) (total + o.millis) (l.single w).1
    trials l limit (remaining + 1) runs total w = (rest.1, rest.2.1,
      (l.single w).2.1 ++ .trialTook (runs + 1) limit o.millis :: rest.2.2) := by
  rw [trials]
  generalize l.single w = first at ho ⊢
  obtain ⟨v, said, fate⟩ := first
  simp only at ho
  subst ho
  simp only [hs, if_true]

/-- Once a trial has succeeded, the measurement does not fail. -/
theorem trials_ne_failed {runs : Nat} (h : 0 < runs) (remaining : Nat) (total : UInt64) (w : σ) :
    (trials l limit remaining runs total w).2.1 ≠ .failed := by
  induction remaining generalizing runs total w with
  | zero => exact nofun
  | succ remaining ih =>
    unfold trials
    split
    · exact nofun
    · split
      · exact ih (Nat.succ_pos _) _ _
      · simp only [soFar, if_neg h.ne']
        exact nofun

/-- A measurement whose first trial does not succeed ends with this trial. -/
theorem measure_of_failed (h : 0 < limit) {o : Outcome} (ho : (l.single w).2.2 = .outcome o)
    (hs : o.status.isSuccess = false) :
    measure l limit w = ((l.single w).1, .failed,
      (l.single w).2.1 ++ [.trialFailed 1 o.status o.millis]) := by
  obtain ⟨remaining, rfl⟩ := Nat.exists_eq_succ_of_ne_zero h.ne'
  rw [measure, if_neg h.ne', trials_of_failure ho hs]
  rfl

/-- A measurement whose first trial succeeds does not fail. -/
theorem measure_of_succeeded (h : 0 < limit) (hs : (l.single w).2.2.succeeded = true) :
    (measure l limit w).2.1 ≠ .failed := by
  obtain ⟨remaining, rfl⟩ := Nat.exists_eq_succ_of_ne_zero h.ne'
  rw [measure, if_neg h.ne']
  cases hfirst : (l.single w).2.2 with
  | crash =>
    rw [hfirst] at hs
    exact absurd hs Bool.false_ne_true
  | outcome o =>
    rw [hfirst] at hs
    rw [trials_of_success hfirst hs]
    exact trials_ne_failed Nat.one_pos _ _ _

/-- A measurement does not outlive a crash. -/
theorem measure_of_crash (h : 0 < limit) (hs : (l.single w).2.2 = .crash) :
    (measure l limit w).2.1 = .crashed := by
  obtain ⟨remaining, rfl⟩ := Nat.exists_eq_succ_of_ne_zero h.ne'
  rw [measure, if_neg h.ne', trials]
  generalize l.single w = first at hs ⊢
  obtain ⟨v, said, fate⟩ := first
  simp only at hs
  subst hs
  rfl

end Baseline

/-! ## Scenarios -/

namespace Scenario

variable {σ : Type} {s : Scenario} {l : Launcher σ} {w : σ}

/-- Without a baseline a scenario launches one run and reports this. -/
theorem run_of_failed (ht : 0 < s.trials) {o : Outcome} (ho : (l.single w).2.2 = .outcome o)
    (hs : o.status.isSuccess = false) :
    s.run l w = ((l.single w).1, some .baselineFailed,
      [.scenarioStarted s.text, .baselineStarted] ++
        ((l.single w).2.1 ++ [.trialFailed 1 o.status o.millis]) ++ [.baselineFailed s.text]) := by
  rw [run, Baseline.measure_of_failed ht ho hs]

/-- With a baseline a scenario reports the best number of executors. -/
theorem run_of_mean {v : σ} {baseline : Float} {said : List Notice}
    (h : Baseline.measure l s.trials w = (v, .mean baseline, said)) :
    (s.run l w).2.1 = some (.finished (Pass.run l s.settings v baseline).2.1) := by
  rw [run, h]

theorem run_of_crashed (h : (Baseline.measure l s.trials w).2.1 = .crashed) :
    (s.run l w).2.1 = none := by
  rw [run]
  generalize Baseline.measure l s.trials w = measured at h ⊢
  obtain ⟨v, result, said⟩ := measured
  simp only at h
  subst h
  rfl

/-- What a report of a sound plan means, when there is one. No baseline is reported exactly when the
first trial has not succeeded, and then it is the only run that was launched. Otherwise the passes
are made with a baseline, and the best number of executors is that of one of them that has
succeeded, or 0 when none has. -/
theorem run_report (p : Plan) (hp : p.Sound) (s : Scenario) (hs : s.settings = p.settings)
    (hc : s.settings.compat = false) (ht : 1 ≤ s.trials) (l : Launcher σ) (w : σ) (report : Report)
    (hrun : (s.run l w).2.1 = some report) :
    (report = .baselineFailed ↔ (l.single w).2.2.succeeded = false) ∧
    (report = .baselineFailed →
      s.run l.logged (w, []) = (((s.run l w).1, [.alone (l.single w).2.2]), (s.run l w).2)) ∧
    ∀ best, report = .finished best → ∃ v baseline said,
      Baseline.measure l s.trials w = (v, .mean baseline, said) ∧
      let threshold := baseline * s.settings.overtime
      let made := passes s.settings (pass l s.settings threshold) v (.initial s.settings.initial)
      0 ≤ best.executors ∧
        (0 < best.executors → ∃ q ∈ made, q.state.executors = best.executors ∧
          Succeeded (passTerms s.settings threshold best.executors.toNat)
            (l.together q.world best.executors.toNat).2 best.average) ∧
        (best.executors = 0 → ∀ q ∈ made, q.verdict.success = false) := by
  cases hfirst : (l.single w).2.2 with
  | crash =>
    rw [run_of_crashed (Baseline.measure_of_crash ht hfirst)] at hrun
    cases hrun
  | outcome o =>
    cases ho : o.status.isSuccess with
    | false =>
      have hfailed := run_of_failed ht hfirst ho
      have hlogged : (l.logged.single (w, [])).2.2 = .outcome o := hfirst
      rw [hfailed, Option.some.injEq] at hrun
      subst hrun
      refine ⟨iff_of_true rfl ho, ?_, nofun⟩
      intro _
      rw [hfailed, run_of_failed ht hlogged ho, ← hfirst]
      rfl
    | true =>
      have hne : (Baseline.measure l s.trials w).2.1 ≠ .failed :=
        Baseline.measure_of_succeeded ht (by rw [hfirst]; exact ho)
      obtain ⟨⟨v, result, said⟩, hmeasured⟩ : ∃ m, Baseline.measure l s.trials w = m := ⟨_, rfl⟩
      cases result with
      | failed => exact absurd (by rw [hmeasured]) hne
      | crashed =>
        rw [run_of_crashed (by rw [hmeasured])] at hrun
        cases hrun
      | mean baseline =>
        rw [run_of_mean hmeasured, Option.some.injEq] at hrun
        subst hrun
        refine ⟨iff_of_false nofun (by rw [Fate.succeeded, ho]; exact nofun), nofun, ?_⟩
        intro best hbest
        obtain rfl := Report.finished.inj hbest
        exact ⟨v, baseline, said, hmeasured,
          run_best l s.settings v baseline (by rw [hs]; exact hp.success_pos) hc⟩

/-- A plan without entries that doubles the number of executors. -/
def doublingPlan : Plan where
  url := "http://localhost"
  account := ⟨"tester", ""⟩
  written := doubling
  entries := []

/-- A scenario of this plan with one trial. -/
def doublingScenario : Scenario where
  name := "doubling"
  params := .standard
  timeout := 0
  trials := 1
  grids := false
  settings := doublingPlan.settings

/-- The trial succeeds, a pass of 1 executor succeeds, and one of 3 executors does not. So the best
number is that of the first pass, with the average of its one run. -/
theorem run_report_doubling :
    let l := Rehearsal.CapacityRuns.launcher
    let s := doublingScenario.settings
    let measured := Baseline.measure l doublingScenario.trials holdingTwo
    let threshold := 1.0 * s.overtime
    measured.2.1 = .mean 1.0 ∧
    (doublingScenario.run l holdingTwo).2.1 = some (.finished ⟨1, 1.0⟩) ∧
    ∃ q ∈ passes s (pass l s threshold) measured.1 (.initial s.initial),
      q.state.executors = 1 ∧ Succeeded (passTerms s threshold 1) (l.together q.world 1).2 1.0 := by
  intro l s measured threshold
  have hmean : measured.2.1 = .mean 1.0 := by
    obtain ⟨_, hmean, rfl⟩ : ∃ millis, measured.2.1 = .mean millis ∧ millis = 1.0 :=
      ⟨_, rfl, by decide +kernel⟩
    exact hmean
  have hmeasured : measured = (measured.1, .mean 1.0, measured.2.2) :=
    Prod.ext rfl (Prod.ext hmean rfl)
  have hbest : (Pass.run l s measured.1 1.0).2.1 = ⟨1, 1.0⟩ := by
    show (ending s (pass l s threshold) measured.1 (.initial s.initial)).2.best = _
    rw [ending_of_not_exhausted (by decide +kernel), ending_of_not_exhausted (by decide +kernel),
      ending_of_exhausted (by decide +kernel), Best.mk.injEq]
    decide +kernel
  have hrun : (doublingScenario.run l holdingTwo).2.1 = some (.finished ⟨1, 1.0⟩) := by
    rw [run_of_mean hmeasured, hbest]
  obtain ⟨-, -, hfinished⟩ :=
    run_report doublingPlan (by decide) doublingScenario rfl rfl (by decide) l holdingTwo _ hrun
  obtain ⟨v, baseline, said, hother, -, hbacked, -⟩ := hfinished _ rfl
  have hsame := hmeasured.symm.trans hother
  simp only [Prod.mk.injEq, Baseline.Result.mean.injEq] at hsame
  obtain ⟨rfl, rfl, -⟩ := hsame
  exact ⟨hmean, hrun, hbacked Int.one_pos⟩

end Scenario

end LoadProbe
