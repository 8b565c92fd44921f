import LoadProbe.Proofs.Pass.Optimum
import LoadProbe.Proofs.Pass.Schedule

/-!
# The plain mode beside the complete one

In the plain mode the number of executors grows without a bound, the last success is the best one,
and every pass is charged. `State.after` is the state after the decisions upon some verdicts. Upon
the same verdicts both modes go the same way as long as no success leads above the bound
(`Tracks.advance`): the complete mode has the same number of executors, has charged no more passes,
and holds a best result that is at least as good. `State.complete_tracks_plain` says this after any
number of passes.
-/

namespace LoadProbe.Pass

open Number

/-- The same settings in the plain mode or in the complete one. -/
def Settings.inMode (s : Settings) (compat : Bool) : Settings :=
  { s with compat := compat }

/-- The state after so many decisions, upon these verdicts in turn. -/
def State.after (s : Settings) (st : State) (verdicts : Nat → Verdict) : Nat → State :=
  follow (State.advance s) st verdicts

theorem State.after_succ (s : Settings) (st : State) (verdicts : Nat → Verdict) (n : Nat) :
    State.after s st verdicts (n + 1) = (State.after s st verdicts n).advance s (verdicts n) := rfl

/-- How a state of the complete mode stands beside one of the plain mode. -/
structure Tracks (complete plain : State) : Prop where
  executors : complete.executors = plain.executors
  hasFailed : complete.hasFailed = plain.hasFailed
  passIndex : complete.passIndex ≤ plain.passIndex
  measured : complete.best.Measured
  best : complete.best.Covers plain.best

namespace State

variable {s : Settings} {st : State} {v : Verdict}

/-- The complete mode grows as the plain mode does, up to the bound. -/
theorem grown_inMode_false (s : Settings) (st : State) :
    st.grown (s.inMode false) = min (st.grown (s.inMode true)) s.upper := rfl

/-- Growing depends on the number of executors and on whether a pass has failed. -/
theorem grown_congr {st' : State} (hk : st.executors = st'.executors)
    (hf : st.hasFailed = st'.hasFailed) : st.grown s = st'.grown s := by
  simp only [grown, hk, hf]

/-- The plain mode charges every pass. -/
theorem passIndex_advance_plain (s : Settings) (st : State) (v : Verdict) :
    (st.advance (s.inMode true) v).passIndex = st.passIndex + 1 := by
  have hcharged : st.charged (s.inMode true) = true := by
    simp [charged, Settings.inMode]
  rw [passIndex_advance, if_neg]
  rintro ⟨-, hfree⟩
  rw [hcharged] at hfree
  cases hfree

/-- In the plain mode a success is the best one. -/
theorem best_advance_plain (s : Settings) (st : State) (hv : v.success = true) :
    (st.advance (s.inMode true) v).best = ⟨st.executors, v.average⟩ := by
  simp only [advance, Settings.inMode, hv, if_true, Bool.true_or]

theorem initial_measured (k : Int) : (initial k).best.Measured := by
  show exact 0.0 ≠ .notANumber
  rw [exact_zero]
  exact nofun

end State

namespace Tracks

variable {s : Settings} {a b : State} {v : Verdict}

/-- Both modes begin in one state. -/
theorem initial (k : Int) : Tracks (.initial k) (.initial k) where
  executors := rfl
  hasFailed := rfl
  passIndex := le_refl _
  measured := State.initial_measured k
  best := .refl (State.initial_measured k)

/-- What is charged and remembered does not depend on how the number of executors changes. -/
theorem passIndex_advance (h : Tracks a b) : (a.advance (s.inMode false) v).passIndex ≤
    (b.advance (s.inMode true) v).passIndex := by
  have hle := h.passIndex
  rw [State.passIndex_advance_plain, State.passIndex_advance]
  split <;> omega

theorem hasFailed_advance (h : Tracks a b) : (a.advance (s.inMode false) v).hasFailed =
    (b.advance (s.inMode true) v).hasFailed := by
  rw [State.hasFailed_advance, State.hasFailed_advance, h.hasFailed]

/-- Both modes shrink in the same way. -/
theorem advance_of_failure (hv : v.success = false) (h : Tracks a b) :
    Tracks (a.advance (s.inMode false) v) (b.advance (s.inMode true) v) := by
  have hbest := State.best_of_failure (s.inMode false) a hv
  have hbest' := State.best_of_failure (s.inMode true) b hv
  refine ⟨?_, h.hasFailed_advance, h.passIndex_advance, ?_, ?_⟩
  · rw [State.executors_of_failure _ a hv, State.executors_of_failure _ b hv, State.shrunk,
      State.shrunk, h.executors]
    rfl
  · rw [hbest]
    exact h.measured
  · rw [hbest, hbest']
    exact h.best

/-- They grow in the same way up to the bound, and the complete mode holds the better one of its
best result and the new one. -/
theorem advance_of_success (hv : v.success = true) (hnumber : exact v.average ≠ .notANumber)
    (hle : (b.advance (s.inMode true) v).executors ≤ s.upper) (h : Tracks a b) :
    Tracks (a.advance (s.inMode false) v) (b.advance (s.inMode true) v) := by
  obtain ⟨-, hcovers, hone⟩ :=
    Made.covers_advance (p := ⟨(), a, v⟩) (s := s.inMode false) rfl hv h.measured hnumber
  have hnew := State.best_advance_plain s b hv
  rw [← h.executors] at hnew
  rw [State.executors_of_success _ b hv] at hle
  refine ⟨?_, h.hasFailed_advance, h.passIndex_advance, ?_, ?_⟩
  · rw [State.executors_of_success _ a hv, State.executors_of_success _ b hv,
      State.grown_inMode_false, State.grown_congr h.executors h.hasFailed, min_eq_left hle]
  · rcases hone with hsame | hresult
    · rw [hsame]
      exact h.measured
    · rw [hresult]
      exact hnumber
  · rw [hnew]
    exact hcovers

/-- Every decision that stays below the bound keeps the modes beside each other. -/
theorem advance (hnumber : v.success = true → exact v.average ≠ .notANumber)
    (hle : v.success = true → (b.advance (s.inMode true) v).executors ≤ s.upper)
    (h : Tracks a b) : Tracks (a.advance (s.inMode false) v) (b.advance (s.inMode true) v) := by
  cases hv : v.success with
  | false => exact h.advance_of_failure hv
  | true => exact h.advance_of_success hv (hnumber hv) (hle hv)

end Tracks

/-- In the plain mode there are as many charges as passes. -/
theorem State.passIndex_after_plain (s : Settings) (k : Int) (verdicts : Nat → Verdict) (n : Nat) :
    (State.after (s.inMode true) (.initial k) verdicts n).passIndex = n := by
  induction n with
  | zero => rfl
  | succ n ih => rw [State.after_succ, State.passIndex_advance_plain, ih]

/-- Both modes take decisions upon the same verdicts, from the same number of executors on. As long
as no success leads the plain mode above the bound, the complete mode has the same number of
executors, remembers the same failures, has not spent its budget unless the plain mode has, and its
best result is at least as good. -/
theorem State.complete_tracks_plain (s : Settings) (k : Int) (verdicts : Nat → Verdict) (n : Nat)
    (haverage : ∀ i < n, (verdicts i).success = true → 0.0 ≤ (verdicts i).average)
    (hbelow : ∀ i < n, (verdicts i).success = true →
      (State.after (s.inMode true) (.initial k) verdicts (i + 1)).executors ≤ s.upper) :
    let complete := State.after (s.inMode false) (.initial k) verdicts n
    let plain := State.after (s.inMode true) (.initial k) verdicts n
    complete.executors = plain.executors ∧ complete.hasFailed = plain.hasFailed ∧
      complete.passIndex ≤ plain.passIndex ∧ plain.passIndex = n ∧
      (complete.exhausted (s.inMode false) = true → plain.exhausted (s.inMode true) = true) ∧
      (plain.best.executors < complete.best.executors ∨
        plain.best.executors = complete.best.executors ∧
          complete.best.average ≤ plain.best.average) := by
  intro complete plain
  have htracks : Tracks complete plain := by
    induction n with
    | zero => exact .initial k
    | succ n ih =>
      have hlast := Nat.lt_succ_self n
      refine Tracks.advance ?_ (hbelow n hlast) (ih ?_ ?_)
      · intro hv
        exact (le_iff.1 (haverage n hlast hv)).2.1
      · exact fun i hi => haverage i (Nat.lt_succ_of_lt hi)
      · exact fun i hi => hbelow i (Nat.lt_succ_of_lt hi)
  have hcharged := htracks.passIndex
  refine ⟨htracks.executors, htracks.hasFailed, hcharged, passIndex_after_plain s k verdicts n, ?_,
    htracks.best⟩
  intro hspent
  have hspent : s.maxRefine ≤ complete.passIndex := of_decide_eq_true hspent
  exact decide_eq_true (hspent.trans hcharged)

/-- Verdicts of which the second one is a failure. -/
def stumblingVerdicts (i : Nat) : Verdict :=
  if i = 1 then .noRuns else ⟨true, 1.0, 9.0, 1, 0⟩

/-- From 3 executors the modes grow to 6, shrink to 3 and grow to 5 again; the plain mode has
charged every pass, and the complete one all but the first. -/
theorem State.complete_tracks_plain_stumbling :
    let s : Settings := ⟨3, 20, 2.0, 1.5, 0.5, 2.0, 1.0, 5, false⟩
    let complete := State.after (s.inMode false) (.initial 3) stumblingVerdicts 3
    let plain := State.after (s.inMode true) (.initial 3) stumblingVerdicts 3
    complete.executors = 5 ∧ plain.executors = 5 ∧
      complete.passIndex = 2 ∧ plain.passIndex = 3 := by
  intro s complete plain
  obtain ⟨hexecutors, -, -, hcharged, -⟩ :=
    State.complete_tracks_plain s 3 stumblingVerdicts 3 (by decide +kernel) (by decide +kernel)
  have hplain : plain.executors = 5 := by decide +kernel
  exact ⟨hexecutors.trans hplain, hplain, by decide +kernel, hcharged⟩

end LoadProbe.Pass
