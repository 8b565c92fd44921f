import LoadProbe.Proofs.Pass.Decision
import LoadProbe.Proofs.Pass.History
import LoadProbe.Proofs.Pass.Scale
import LoadProbe.Rehearsal.CapacityRuns

/-!
# Convergence on the capacity of a server

A server of capacity `c` carries a pass through that has at least one executor and at most `c` of
them. Below the bound the number of executors grows until a pass fails, and then the capacity lies
within one growing step of the best number (`Within`). No later pass can change this: the best
number never becomes smaller (`State.executors_best_of_success`), and a step from a greater number
reaches further (`scale_mono`), so the loop ends within one step of the capacity
(`ending_within`). When the server carries the bound itself through, no pass fails, and the passes
are charged at the bound alone (`ending_at_bound`).
-/

namespace LoadProbe.Pass

open Number

/-! ## Growing -/

/-- The capacity lies within one growing step of a number of executors. -/
def Within (s : Settings) (c k : Int) : Prop :=
  c < max (k + 2) (scale k s.expand)

/-- It also lies within one step of any greater number. -/
theorem Within.mono {s : Settings} (hf : 0.0 < s.expand) {c a b : Int} (hab : a ≤ b)
    (h : Within s c a) : Within s c b := by
  have := scale_mono hf hab
  unfold Within at *
  omega

/-- Until a pass fails, growing is a step of the expanding factor. -/
theorem within_of_lt_grown {s : Settings} {st : State} (hc : s.compat = false)
    (hf : st.hasFailed = false) {c : Int} (h : c < st.grown s) : Within s c st.executors := by
  simp only [State.grown, hc, hf, Bool.false_eq_true, ite_false] at h
  unfold Within
  split at h <;> omega

/-! ## Passes on a server of capacity `c` -/

/-- The pass was carried through exactly when the capacity allows it. -/
def Made.fits {σ : Type} (c : Int) (p : Made σ) : Prop :=
  p.verdict.success = true ↔ 1 ≤ p.state.executors ∧ p.state.executors ≤ c

/-- What holds before every pass when the bound lies above the capacity. -/
structure Bracketed (s : Settings) (c : Int) (st : State) : Prop where
  nonneg : 0 ≤ st.best.executors
  le : st.best.executors ≤ c
  /-- Until a pass fails, nothing is charged, and the next pass either succeeds or has grown past
  the capacity. -/
  growing : st.hasFailed = false → st.passIndex = 0 ∧ 1 ≤ st.executors ∧
    (st.executors ≤ c ∨ Within s c st.best.executors)
  failed : st.hasFailed = true → Within s c st.best.executors

variable {σ : Type} {s : Settings} {c : Int}

instance (p : Made σ) : Decidable (p.fits c) :=
  inferInstanceAs (Decidable (_ ↔ _))

/-- The first failure is that of a number that had grown past the capacity. -/
theorem Bracketed.advance_of_failure {p : Made σ} (hp : p.fits c) (hv : p.verdict.success = false)
    (h : Bracketed s c p.state) : Bracketed s c (p.state.advance s p.verdict) := by
  have hbest := State.best_of_failure s p.state hv
  have hfailed : (p.state.advance s p.verdict).hasFailed = true := by
    simp [State.hasFailed_advance, hv]
  have hin : Within s c p.state.best.executors := by
    cases hst : p.state.hasFailed with
    | true => exact h.failed hst
    | false =>
      obtain ⟨-, hpos, hle | hin⟩ := h.growing hst
      · rw [hp.2 ⟨hpos, hle⟩] at hv
        cases hv
      · exact hin
  constructor
  · rw [hbest]
    exact h.nonneg
  · rw [hbest]
    exact h.le
  · intro hst
    rw [hfailed] at hst
    cases hst
  · intro _
    rw [hbest]
    exact hin

/-- A success raises the best number, or keeps it. -/
theorem Bracketed.advance_of_success (hc : s.compat = false) (hf : 0.0 < s.expand)
    (hcu : c < s.upper) {p : Made σ} (hp : p.fits c) (hv : p.verdict.success = true)
    (h : Bracketed s c p.state) : Bracketed s c (p.state.advance s p.verdict) := by
  obtain ⟨hpos, hle⟩ := hp.1 hv
  have hbestle := h.le
  have hbest := State.executors_best_of_success p.state hc hv
  have hfailed : (p.state.advance s p.verdict).hasFailed = p.state.hasFailed := by
    simp [State.hasFailed_advance, hv]
  constructor
  · omega
  · omega
  · intro hst
    rw [hfailed] at hst
    obtain ⟨hindex, -, -⟩ := h.growing hst
    have hnext := State.executors_of_success s p.state hv
    have hgrown := State.grown_mem p.state hc
    have hfree := State.not_charged hc hst (show p.state.executors < s.upper by omega)
    refine ⟨?_, by omega, ?_⟩
    · rw [State.passIndex_advance, if_pos ⟨hv, hfree⟩, hindex]
    · rcases le_or_gt (p.state.grown s) c with hk | hk
      · exact .inl (hnext ▸ hk)
      · exact .inr ((within_of_lt_grown hc hst hk).mono hf (by omega))
  · intro hst
    rw [hfailed] at hst
    exact (h.failed hst).mono hf (by omega)

/-- Every decision keeps the bracket. -/
theorem Bracketed.advance (hc : s.compat = false) (hf : 0.0 < s.expand) (hcu : c < s.upper)
    {p : Made σ} (hp : p.fits c) (h : Bracketed s c p.state) :
    Bracketed s c (p.state.advance s p.verdict) := by
  cases hv : p.verdict.success with
  | false => exact h.advance_of_failure hp hv
  | true => exact h.advance_of_success hc hf hcu hp hv

/-- What holds before every pass when the server carries the bound through. -/
structure Climbing (s : Settings) (st : State) : Prop where
  notFailed : st.hasFailed = false
  pos : 1 ≤ st.executors
  le : st.executors ≤ s.upper
  best_le : st.best.executors ≤ s.upper
  /-- The first charge is made at the bound. -/
  charged : 0 < st.passIndex → st.best.executors = s.upper

/-- No decision stops the climb, since every pass succeeds. -/
theorem Climbing.advance (hc : s.compat = false) (huc : s.upper ≤ c) {p : Made σ} (hp : p.fits c)
    (h : Climbing s p.state) : Climbing s (p.state.advance s p.verdict) := by
  have hv : p.verdict.success = true := hp.2 ⟨h.pos, h.le.trans huc⟩
  have hbest := State.executors_best_of_success p.state hc hv
  have hgrown := State.grown_mem p.state hc
  have hpos := h.pos
  have hle := h.le
  have hbestle := h.best_le
  have hnext := State.executors_of_success s p.state hv
  refine ⟨?_, by omega, by omega, by omega, ?_⟩
  · simp [State.hasFailed_advance, hv, h.notFailed]
  · intro hindex
    cases hch : p.state.charged s with
    | true =>
      simp only [State.charged, hc, h.notFailed, Bool.false_or, decide_eq_true_eq] at hch
      omega
    | false =>
      rw [State.passIndex_advance, if_pos ⟨hv, hch⟩] at hindex
      have := h.charged hindex
      omega

theorem Bracketed.initial (hpos : 1 ≤ s.initial) (hinitial : s.initial ≤ c) :
    Bracketed s c (.initial s.initial) where
  nonneg := le_rfl
  le := by
    show (0 : Int) ≤ c
    omega
  growing _ := ⟨rfl, hpos, .inl hinitial⟩
  failed h := absurd h Bool.false_ne_true

theorem Climbing.initial (hpos : 1 ≤ s.initial) (hinitial : s.initial ≤ s.upper) :
    Climbing s (.initial s.initial) where
  notFailed := rfl
  pos := hpos
  le := hinitial
  best_le := by
    show (0 : Int) ≤ s.upper
    omega
  charged h := absurd h (Nat.lt_irrefl 0)

section Loop

variable {pass : σ → Int → σ × Verdict × List Notice} {w : σ}

/-- Below the bound the loop ends within one growing step of the capacity. -/
theorem ending_within (hcompat : s.compat = false) (hexpand : 0.0 < s.expand)
    (hpos : 1 ≤ s.initial) (hinitial : s.initial ≤ c) (hcu : c < s.upper)
    (hbudget : 1 ≤ s.maxRefine)
    (hfits : ∀ p ∈ passes s pass w (.initial s.initial), p.fits c) :
    (ending s pass w (.initial s.initial)).2.best.executors ≤ c ∧
      Within s c (ending s pass w (.initial s.initial)).2.best.executors := by
  have hspent : (ending s pass w (.initial s.initial)).2.exhausted s = true := exhausted_ending
  simp only [State.exhausted, decide_eq_true_eq] at hspent
  have hend : Bracketed s c (ending s pass w (.initial s.initial)).2 :=
    (passes_invariant (.initial hpos hinitial) fun p hp =>
      .advance hcompat hexpand hcu (hfits p hp)).2
  refine ⟨hend.le, ?_⟩
  cases hst : (ending s pass w (.initial s.initial)).2.hasFailed with
  | true => exact hend.failed hst
  | false =>
    have := (hend.growing hst).1
    omega

/-- When the capacity is not below the bound, the loop ends at the bound. -/
theorem ending_at_bound (hcompat : s.compat = false) (hpos : 1 ≤ s.initial)
    (hinitial : s.initial ≤ s.upper) (huc : s.upper ≤ c) (hbudget : 1 ≤ s.maxRefine)
    (hfits : ∀ p ∈ passes s pass w (.initial s.initial), p.fits c) :
    (ending s pass w (.initial s.initial)).2.best.executors = s.upper := by
  have hspent : (ending s pass w (.initial s.initial)).2.exhausted s = true := exhausted_ending
  simp only [State.exhausted, decide_eq_true_eq] at hspent
  have hend : Climbing s (ending s pass w (.initial s.initial)).2 :=
    (passes_invariant (.initial hpos hinitial) fun p hp => .advance hcompat huc (hfits p hp)).2
  exact hend.charged (by omega)

end Loop

/-- On a server of capacity `c` the best number of executors does not exceed the capacity. It is the
bound when the server carries this through, and otherwise the capacity lies within one growing step
of it. -/
theorem run_converges (l : Launcher σ) (s : Settings) (w : σ) (baseline : Float) (c : Int)
    (hcompat : s.compat = false) (hexpand : 0.0 < s.expand) (hpos : 1 ≤ s.initial)
    (hinitial : s.initial ≤ min c s.upper) (hbudget : 1 ≤ s.maxRefine)
    (hfits : ∀ p ∈ passes s (pass l s (baseline * s.overtime)) w (.initial s.initial), p.fits c) :
    let best := (run l s w baseline).2.1
    best.executors ≤ c ∧ (s.upper ≤ c → best.executors = s.upper) ∧
      (c < s.upper → c < max (best.executors + 2) (scale best.executors s.expand)) := by
  intro best
  obtain ⟨hc, hu⟩ := le_min_iff.1 hinitial
  rcases lt_or_ge c s.upper with hcu | huc
  · obtain ⟨hle, hwithin⟩ := ending_within hcompat hexpand hpos hc hcu hbudget hfits
    exact ⟨hle, fun h => absurd hcu (not_lt.2 h), fun _ => hwithin⟩
  · have heq : best.executors = s.upper := ending_at_bound hcompat hpos hu huc hbudget hfits
    exact ⟨heq.trans_le huc, fun _ => heq, fun h => absurd h (not_lt.2 huc)⟩

/-- Settings that double the number of executors up to 4 of them, and require every run of a pass to
be normal. -/
def doubling : Settings where
  initial := 1
  upper := 4
  expand := 2.0
  refine := 1.5
  shrink := 0.5
  overtime := 2.0
  success := 1.0
  maxRefine := 1
  compat := false

/-- A server that holds 2 runs in flight, at the start of the clock. -/
def holdingTwo : Timeline Rehearsal.CapacityRuns Rehearsal.CapacityRuns.Stage :=
  .start ⟨2, 1, 0, 0, .none⟩

/-- A pass of 1 executor succeeds on this server, and the next one of 3 executors fails. -/
theorem run_converges_holdingTwo :
    let best := (run Rehearsal.CapacityRuns.launcher doubling holdingTwo 1.0).2.1
    best.executors ≤ 2 ∧ (doubling.upper ≤ 2 → best.executors = doubling.upper) ∧
      (2 < doubling.upper →
        2 < max (best.executors + 2) (scale best.executors doubling.expand)) := by
  refine run_converges Rehearsal.CapacityRuns.launcher doubling holdingTwo 1.0 2 rfl ?_ ?_ ?_ ?_ ?_
  · decide
  · decide
  · decide
  · decide
  · rw [passes_of_not_exhausted rfl, passes_of_not_exhausted rfl, passes_of_exhausted rfl]
    decide

end LoadProbe.Pass
