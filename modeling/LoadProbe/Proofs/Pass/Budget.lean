import LoadProbe.Proofs.Pass.Decision
import LoadProbe.Proofs.Pass.History
import Mathlib.Algebra.Order.Archimedean.Basic
import Mathlib.Data.Rat.Floor
import Mathlib.Tactic.Linarith
import Mathlib.Tactic.NormNum

/-!
# The budget of a scenario

Every pass is charged against the budget, apart from the successes below the bound that are made
before anything else. Once a pass is charged, all later ones are (`State.charged_advance`), so the
free passes come first (`Account`), and each of them brings the number of executors 2 closer to the
bound (`passes_account`). In the end the budget is spent to the last charge (`passIndex_ending`).
-/

namespace LoadProbe.Pass

/-! ## The free passes -/

/-- A success below the bound. -/
def Made.succeededBelow {σ : Type} (s : Settings) (p : Made σ) : Bool :=
  p.verdict.success && decide (p.state.executors < s.upper)

/-- The decision upon the pass leaves the budget alone. -/
def Made.uncharged {σ : Type} (s : Settings) (p : Made σ) : Bool :=
  decide ((p.state.advance s p.verdict).passIndex = p.state.passIndex)

variable {σ : Type} {s : Settings} {pass : σ → Int → σ × Verdict × List Notice} {w : σ} {st : State}

theorem succeededBelow_iff {p : Made σ} :
    p.succeededBelow s = true ↔ p.verdict.success = true ∧ p.state.executors < s.upper := by
  rw [Made.succeededBelow, Bool.and_eq_true, decide_eq_true_iff]

/-- The successes below the bound that are made first. -/
def freeBlock (s : Settings) (made : List (Made σ)) : List (Made σ) :=
  made.takeWhile (·.succeededBelow s)

theorem uncharged_iff {p : Made σ} :
    p.uncharged s = true ↔ p.verdict.success = true ∧ p.state.charged s = false := by
  rw [Made.uncharged, decide_eq_true_iff, State.passIndex_advance]
  split
  · rename_i h
    exact iff_of_true rfl h
  · rename_i h
    exact iff_of_false (by omega) h

/-- From a charged pass on, none is free. -/
theorem filter_uncharged_of_charged (h : st.charged s = true) :
    (passes s pass w st).filter (·.uncharged s) = [] := by
  have hall : ∀ p ∈ passes s pass w st, p.state.charged s = true :=
    (passes_invariant (I := fun st => st.charged s = true) h
      fun _ _ hp => State.charged_advance hp).1
  rw [List.filter_eq_nil_iff]
  intro p hp hfree
  have := hall p hp
  rw [(uncharged_iff.1 hfree).2] at this
  exact absurd this Bool.false_ne_true

/-- From a charged pass on, as many passes are made as there is budget left. -/
theorem length_passes_of_charged (h : st.charged s = true) (hb : st.passIndex ≤ s.maxRefine) :
    (passes s pass w st).length + st.passIndex = s.maxRefine := by
  induction w, st using passes.induct s pass with
  | case1 w st hex =>
    rw [passes_of_exhausted hex, List.length_nil]
    simp only [State.exhausted, decide_eq_true_eq] at hex
    omega
  | case2 w st hex ih =>
    rw [passes_of_not_exhausted (Bool.eq_false_iff.2 hex), List.length_cons]
    simp only [State.exhausted, decide_eq_true_eq] at hex
    have hindex : (turn s pass (w, st)).2.passIndex = st.passIndex + 1 := by
      rw [turn, State.passIndex_advance, if_neg (by simp [h])]
    have := ih (State.charged_advance h) (by omega)
    omega

/-- What the passes from a state on that has not failed come to. -/
structure Account (s : Settings) (st : State) (made : List (Made σ)) : Prop where
  /-- There is a pass for each charge, and the free block. -/
  length : made.length + st.passIndex = s.maxRefine + (freeBlock s made).length
  uncharged : made.filter (·.uncharged s) = freeBlock s made
  low : ∀ p ∈ freeBlock s made, st.executors ≤ p.state.executors
  sorted : (freeBlock s made).Pairwise fun p q => p.state.executors < q.state.executors
  few : 2 * ((freeBlock s made).length : Int) ≤ max 0 (s.upper - st.executors) + 1

theorem freeBlock_cons_of_pos {p : Made σ} {made : List (Made σ)} (h : p.succeededBelow s = true) :
    freeBlock s (p :: made) = p :: freeBlock s made :=
  List.takeWhile_cons_of_pos h

theorem freeBlock_cons_of_neg {p : Made σ} {made : List (Made σ)} (h : p.succeededBelow s = false) :
    freeBlock s (p :: made) = [] :=
  List.takeWhile_cons_of_neg (Bool.eq_false_iff.1 h)

/-- A success below the bound is put before the passes of the next state, if none has failed. -/
theorem Account.cons {p : Made σ} {made : List (Made σ)} (hc : s.compat = false)
    (hf : p.state.hasFailed = false) (hp : p.succeededBelow s = true)
    (h : Account s (p.state.advance s p.verdict) made) : Account s p.state (p :: made) := by
  obtain ⟨hv, hlt⟩ := succeededBelow_iff.1 hp
  have hfree := State.not_charged hc hf hlt
  have hindex : (p.state.advance s p.verdict).passIndex = p.state.passIndex := by
    rw [State.passIndex_advance, if_pos ⟨hv, hfree⟩, Nat.add_zero]
  have hgrown : min (p.state.executors + 2) s.upper ≤ (p.state.advance s p.verdict).executors := by
    rw [State.executors_of_success s p.state hv]
    exact (State.grown_mem p.state hc).1
  have hlow : ∀ q ∈ freeBlock s made, p.state.executors < q.state.executors := by
    intro q hq
    have := h.low q hq
    omega
  constructor
  · have := h.length
    rw [freeBlock_cons_of_pos hp, List.length_cons, List.length_cons]
    omega
  · rw [freeBlock_cons_of_pos hp, List.filter_cons_of_pos (uncharged_iff.2 ⟨hv, hfree⟩),
      h.uncharged]
  · rw [freeBlock_cons_of_pos hp]
    exact List.forall_mem_cons.2 ⟨le_refl _, fun q hq => (hlow q hq).le⟩
  · rw [freeBlock_cons_of_pos hp]
    exact .cons hlow h.sorted
  · have := h.few
    rw [freeBlock_cons_of_pos hp, List.length_cons]
    push_cast
    omega

/-- Any other pass ends the free block, and all later ones are charged. -/
theorem account_of_charged (hne : st.exhausted s = false)
    (hp : (Made.of pass (w, st)).succeededBelow s = false) :
    Account s st (passes s pass w st) := by
  have hsucc : (pass w st.executors).2.1.success = true → st.charged s = true := by
    intro hv
    have hup : s.upper ≤ st.executors := by
      by_contra hlt
      rw [succeededBelow_iff.2 ⟨hv, not_le.1 hlt⟩] at hp
      cases hp
    exact State.charged_of_le hup
  have hindex : (turn s pass (w, st)).2.passIndex = st.passIndex + 1 := by
    rw [turn, State.passIndex_advance, if_neg]
    rintro ⟨hv, hch⟩
    exact absurd (hsucc hv) (Bool.eq_false_iff.1 hch)
  have hun : (Made.of pass (w, st)).uncharged s = false := by
    rw [Made.uncharged, decide_eq_false_iff_not]
    exact ne_of_eq_of_ne hindex (Nat.succ_ne_self _)
  have hch : (turn s pass (w, st)).2.charged s = true := State.charged_advance_of hsucc
  have hlt := State.lt_of_not_exhausted hne
  have hlength : (passes s pass (turn s pass (w, st)).1 (turn s pass (w, st)).2).length +
      (turn s pass (w, st)).2.passIndex = s.maxRefine :=
    length_passes_of_charged hch (by omega)
  rw [passes_of_not_exhausted hne]
  constructor
  · rw [freeBlock_cons_of_neg hp, List.length_cons, List.length_nil]
    omega
  · rw [freeBlock_cons_of_neg hp, List.filter_cons_of_neg (by simp [hun]),
      filter_uncharged_of_charged hch]
  · rw [freeBlock_cons_of_neg hp]
    exact List.forall_mem_nil _
  · rw [freeBlock_cons_of_neg hp]
    exact .nil
  · rw [freeBlock_cons_of_neg hp, List.length_nil]
    omega

/-- From a state on that has not failed, the free passes come first. -/
theorem passes_account (hc : s.compat = false) (hf : st.hasFailed = false)
    (hb : st.passIndex ≤ s.maxRefine) : Account s st (passes s pass w st) := by
  induction w, st using passes.induct s pass with
  | case1 w st hex =>
    rw [passes_of_exhausted hex]
    simp only [State.exhausted, decide_eq_true_eq] at hex
    exact ⟨by simp [freeBlock]; omega, rfl, List.forall_mem_nil _, .nil, by simp [freeBlock]; omega⟩
  | case2 w st hex ih =>
    have hne := Bool.eq_false_iff.2 hex
    cases hp : (Made.of pass (w, st)).succeededBelow s with
    | false => exact account_of_charged hne hp
    | true =>
      obtain ⟨hv, hlt⟩ := succeededBelow_iff.1 hp
      rw [passes_of_not_exhausted hne]
      refine Account.cons (p := .of pass (w, st)) hc hf hp (ih ?_ ?_)
      · rw [turn, State.hasFailed_advance, hf]
        simpa [Made.of] using hv
      · rw [turn, State.passIndex_advance, if_pos ⟨hv, State.not_charged hc hf hlt⟩]
        exact hb

/-! ## The whole loop -/

/-- In the end the budget is spent to the last charge. -/
theorem passIndex_ending (hb : st.passIndex ≤ s.maxRefine) :
    (ending s pass w st).2.passIndex = s.maxRefine := by
  have hstep : ∀ p ∈ passes s pass w st, p.state.passIndex ≤ s.maxRefine →
      (p.state.advance s p.verdict).passIndex ≤ s.maxRefine :=
    fun p hp _ => State.passIndex_advance_le (mem_passes hp).1 p.verdict
  have hle := (passes_invariant (I := fun st => st.passIndex ≤ s.maxRefine) hb hstep).2
  have hge : (ending s pass w st).2.exhausted s = true := exhausted_ending
  simp only [State.exhausted, decide_eq_true_eq] at hge
  exact le_antisymm hle hge

/-- The loop stops, and its passes are accounted for: the budget is spent to the last charge
(plain mode: a pass for each), and the other passes are the successes below the bound that are made
first, each with more executors than the one before. -/
theorem converge_budget (s : Settings) (pass : σ → Int → σ × Verdict × List Notice) (w : σ) :
    let start := (w, State.initial s.initial)
    let made := passes s pass w (.initial s.initial)
    let free := freeBlock s made
    (∀ i < made.length, ((turn s pass)^[i] start).2.exhausted s = false) ∧
    made = ((List.range made.length).map fun i => .of pass ((turn s pass)^[i] start)) ∧
    ending s pass w (.initial s.initial) = (turn s pass)^[made.length] start ∧
    (ending s pass w (.initial s.initial)).2.passIndex = s.maxRefine ∧
    (s.compat = true → made.length = s.maxRefine) ∧
    (s.compat = false →
      made.length = s.maxRefine + free.length ∧
      made.filter (·.uncharged s) = free ∧
      (free.map (·.state.executors)).Pairwise (· < ·) ∧
      (free.length : Int) ≤ ⌈((max 0 (s.upper - s.initial) : Int) : ℚ) / 2⌉) := by
  intro start made free
  refine ⟨fun i hi => not_exhausted_of_lt_length hi, passes_eq_map, ending_eq_turns,
    passIndex_ending (Nat.zero_le _), ?_, ?_⟩
  · intro hc
    have hch : (State.initial s.initial).charged s = true := by
      simp [State.charged, hc]
    exact length_passes_of_charged hch (Nat.zero_le _)
  · intro hc
    have account : Account s (.initial s.initial) made := passes_account hc rfl (Nat.zero_le _)
    refine ⟨account.length, account.uncharged, List.pairwise_map.2 account.sorted, ?_⟩
    have hfew : (2 * free.length : ℚ) ≤ (max 0 (s.upper - s.initial) : Int) + 1 := by
      exact_mod_cast account.few
    have hceil : (free.length : Int) - 1 < ⌈((max 0 (s.upper - s.initial) : Int) : ℚ) / 2⌉ := by
      rw [Int.lt_ceil, Int.cast_sub, Int.cast_natCast, Int.cast_one]
      linarith
    exact Int.sub_one_lt_iff.1 hceil

end LoadProbe.Pass
