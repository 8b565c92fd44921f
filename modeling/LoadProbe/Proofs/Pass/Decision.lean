import LoadProbe.Pass.Controller
import Mathlib.Order.Basic

/-!
# The decision upon a pass

What `State.advance` does to each part of the state. A success lets the number of executors grow, by
2 at least and up to the bound (`State.grown_mem`), and may become the best one
(`State.best_advance`); a failure is remembered. Every pass is charged, unless it is a success below
the bound and no pass has failed before (`State.passIndex_advance`), and once a pass is charged, all
later ones are (`State.charged_advance`).
-/

namespace LoadProbe.Pass.State

variable {s : Settings} {st : State} {v : Verdict}

theorem executors_of_success (s : Settings) (st : State) (hv : v.success = true) :
    (st.advance s v).executors = st.grown s := by
  simp [advance, hv]

theorem executors_of_failure (s : Settings) (st : State) (hv : v.success = false) :
    (st.advance s v).executors = st.shrunk s := by
  simp [advance, hv]

theorem hasFailed_advance : (st.advance s v).hasFailed = (st.hasFailed || !v.success) := by
  unfold advance
  cases v.success with
  | true => simp
  | false => simp

/-- Growing adds 2 at least, or leads to the bound. -/
theorem min_le_grown (s : Settings) (st : State) :
    min (st.executors + 2) s.upper ≤ st.grown s := by
  simp only [grown]
  split <;> split <;> omega

/-- Growing adds 2 at least, and never exceeds the bound. -/
theorem grown_mem (st : State) (hc : s.compat = false) :
    min (st.executors + 2) s.upper ≤ st.grown s ∧ st.grown s ≤ s.upper := by
  refine ⟨min_le_grown s st, ?_⟩
  simp only [grown, hc, Bool.false_eq_true, ite_false]
  exact Int.min_le_right _ _

/-! ## The best number -/

/-- A failure changes nothing about the best number. -/
theorem best_of_failure (s : Settings) (st : State) (hv : v.success = false) :
    (st.advance s v).best = st.best := by
  simp only [advance, hv, Bool.false_eq_true, if_false]

/-- The best number stays, or it is the one that has succeeded. -/
theorem best_advance (s : Settings) (st : State) (v : Verdict) : (st.advance s v).best = st.best ∨
    v.success = true ∧ (st.advance s v).best = ⟨st.executors, v.average⟩ := by
  cases hv : v.success with
  | false => exact .inl (best_of_failure s st hv)
  | true =>
    simp only [advance, hv, if_true]
    split
    · exact .inr ⟨trivial, rfl⟩
    · exact .inl rfl

/-- After a success the best number is the greater one of the best number and the one that has
succeeded. -/
theorem executors_best_of_success (st : State) (hc : s.compat = false) (hv : v.success = true) :
    (st.advance s v).best.executors = max st.best.executors st.executors := by
  simp only [advance, hv, hc, if_true, Bool.false_or, improves]
  split
  · rename_i h
    simp only [Bool.or_eq_true, Bool.and_eq_true, decide_eq_true_eq] at h
    show st.executors = _
    omega
  · rename_i h
    simp only [Bool.or_eq_true, Bool.and_eq_true, decide_eq_true_eq, not_or] at h
    omega

/-! ## Charges -/

theorem lt_of_not_exhausted (h : st.exhausted s = false) : st.passIndex < s.maxRefine := by
  simpa [exhausted] using h

theorem not_exhausted_of_lt (h : st.passIndex < s.maxRefine) : st.exhausted s = false := by
  simpa [exhausted] using h

/-- A decision charges the pass, unless it was a success that is free. -/
theorem passIndex_advance : (st.advance s v).passIndex =
    st.passIndex + if v.success = true ∧ st.charged s = false then 0 else 1 := by
  unfold advance
  cases v.success <;> cases st.charged s <;> rfl

/-- A decision that is taken while there is budget left does not overspend it. -/
theorem passIndex_advance_le (h : st.exhausted s = false) (v : Verdict) :
    (st.advance s v).passIndex ≤ s.maxRefine := by
  have hlt := lt_of_not_exhausted h
  rw [passIndex_advance]
  split <;> omega

/-- A failure is always charged. -/
theorem passIndex_of_failure (s : Settings) (st : State) (hv : v.success = false) :
    (st.advance s v).passIndex = st.passIndex + 1 := by
  rw [passIndex_advance, if_neg (by simp [hv])]

/-- Below the bound nothing is charged until a pass fails. -/
theorem not_charged (hc : s.compat = false) (hf : st.hasFailed = false)
    (h : st.executors < s.upper) : st.charged s = false := by
  simp [charged, hc, hf, h]

/-- At the bound every pass is charged. -/
theorem charged_of_le (h : s.upper ≤ st.executors) : st.charged s = true := by
  simp [charged, h]

/-- A success that is charged is followed by a state that charges as well, and so is every
failure. -/
theorem charged_advance_of (h : v.success = true → st.charged s = true) :
    (st.advance s v).charged s = true := by
  cases hv : v.success with
  | false => simp [charged, hasFailed_advance, hv]
  | true =>
    cases hc : s.compat with
    | true => simp [charged, hc]
    | false =>
      have hst := h hv
      simp only [charged, hc, Bool.false_or, Bool.or_eq_true, decide_eq_true_eq] at hst
      rcases hst with hfail | hup
      · simp [charged, hasFailed_advance, hfail]
      · have hgrown := grown_mem st hc
        have hnext := executors_of_success s st hv
        exact charged_of_le (by omega)

/-- Once a pass is charged, all later ones are. -/
theorem charged_advance (h : st.charged s = true) : (st.advance s v).charged s = true :=
  charged_advance_of fun _ => h

end LoadProbe.Pass.State
