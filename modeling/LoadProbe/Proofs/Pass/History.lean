import LoadProbe.Pass.Launcher
import Mathlib.Logic.Function.Iterate

/-!
# The passes that are made

`turn` is one round of the loop `converge`: a pass is made and its verdict decided upon. `passes`
lists the passes of the whole loop, each with the world and the state that it began in. The loop
makes as many turns as there are passes, stops at the first state whose budget is spent
(`not_exhausted_of_lt_length`, `exhausted_ending`, `length_passes_eq`), and ends where the turns
lead to (`ending_eq_turns`). From any of its turns on it makes the passes that are left
(`length_passes_turns`). An invariant of states is shown for the passes that were made
(`passes_invariant`, `turns_invariant`).
-/

namespace LoadProbe.Pass

/-- A pass that was made. -/
structure Made (σ : Type) where
  /-- The world before the pass. -/
  world : σ
  /-- The state before the pass. -/
  state : State
  verdict : Verdict

section Loop

variable {σ : Type} (s : Settings) (pass : σ → Int → σ × Verdict × List Notice)

/-- The pass that is made in a world and a state. -/
def Made.of (c : σ × State) : Made σ :=
  ⟨c.1, c.2, (pass c.1 c.2.executors).2.1⟩

/-- A pass and the decision upon its verdict. -/
def turn (c : σ × State) : σ × State :=
  ((pass c.1 c.2.executors).1, c.2.advance s (pass c.1 c.2.executors).2.1)

/-- The passes that are made until the budget is spent. -/
def passes (w : σ) (st : State) : List (Made σ) :=
  if _h : st.exhausted s = true then []
  else .of pass (w, st) :: passes (turn s pass (w, st)).1 (turn s pass (w, st)).2
termination_by (s.maxRefine - st.passIndex, (s.upper - st.executors).toNat)
decreasing_by exact State.advance_decreases (Bool.eq_false_iff.mpr _h) _

/-- The world and the state that the loop ends in. -/
def ending (w : σ) (st : State) : σ × State :=
  ((converge s pass w st).1, (converge s pass w st).2.1)

variable {s pass} {w : σ} {st : State}

theorem passes_of_exhausted (h : st.exhausted s = true) : passes s pass w st = [] := by
  rw [passes, dif_pos h]

theorem passes_of_not_exhausted (h : st.exhausted s = false) :
    passes s pass w st =
      .of pass (w, st) :: passes s pass (turn s pass (w, st)).1 (turn s pass (w, st)).2 := by
  rw [passes, dif_neg (Bool.eq_false_iff.1 h)]

theorem ending_of_exhausted (h : st.exhausted s = true) : ending s pass w st = (w, st) := by
  rw [ending, converge, dif_pos h]

theorem ending_of_not_exhausted (h : st.exhausted s = false) :
    ending s pass w st = ending s pass (turn s pass (w, st)).1 (turn s pass (w, st)).2 := by
  rw [ending, converge, dif_neg (Bool.eq_false_iff.1 h)]
  rfl

/-! ## The turns of the loop -/

/-- The loop ends where as many turns lead to as there are passes. -/
theorem ending_eq_turns :
    ending s pass w st = (turn s pass)^[(passes s pass w st).length] (w, st) := by
  induction w, st using passes.induct s pass with
  | case1 w st h => rw [passes_of_exhausted h, ending_of_exhausted h, List.length_nil,
      Function.iterate_zero_apply]
  | case2 w st h ih =>
    have h := Bool.eq_false_iff.2 h
    rw [passes_of_not_exhausted h, ending_of_not_exhausted h, ih, List.length_cons,
      Function.iterate_succ_apply]

/-- The passes are those of the turns one after the other. -/
theorem passes_eq_map : passes s pass w st =
    (List.range (passes s pass w st).length).map fun i => .of pass ((turn s pass)^[i] (w, st)) := by
  induction w, st using passes.induct s pass with
  | case1 w st h => rw [passes_of_exhausted h, List.length_nil, List.range_zero, List.map_nil]
  | case2 w st h ih =>
    have h := Bool.eq_false_iff.2 h
    rw [passes_of_not_exhausted h, List.length_cons, List.range_succ_eq_map, List.map_cons,
      List.map_map]
    exact congrArg (Made.of pass (w, st) :: ·) ih

/-- Before each pass there is some budget left. -/
theorem not_exhausted_of_lt_length {i : Nat} (hi : i < (passes s pass w st).length) :
    ((turn s pass)^[i] (w, st)).2.exhausted s = false := by
  induction w, st using passes.induct s pass generalizing i with
  | case1 w st h =>
    rw [passes_of_exhausted h] at hi
    exact absurd hi (Nat.not_lt_zero i)
  | case2 w st h ih =>
    have h := Bool.eq_false_iff.2 h
    rw [passes_of_not_exhausted h, List.length_cons] at hi
    cases i with
    | zero => exact h
    | succ i =>
      rw [Function.iterate_succ_apply]
      exact ih (Nat.lt_of_succ_lt_succ hi)

/-- In the end the budget is spent. -/
theorem exhausted_ending : (ending s pass w st).2.exhausted s = true := by
  induction w, st using passes.induct s pass with
  | case1 w st h => rwa [ending_of_exhausted h]
  | case2 w st h ih => rwa [ending_of_not_exhausted (Bool.eq_false_iff.2 h)]

/-- There are as many passes as there are turns before the first state whose budget is spent. -/
theorem length_passes_eq {n : Nat}
    (hbefore : ∀ i < n, ((turn s pass)^[i] (w, st)).2.exhausted s = false)
    (hn : ((turn s pass)^[n] (w, st)).2.exhausted s = true) :
    (passes s pass w st).length = n := by
  rcases Nat.lt_trichotomy (passes s pass w st).length n with hlt | heq | hgt
  · have hend : (ending s pass w st).2.exhausted s = true := exhausted_ending
    rw [ending_eq_turns, hbefore _ hlt] at hend
    cases hend
  · exact heq
  · rw [not_exhausted_of_lt_length hgt] at hn
    cases hn

/-- After some of the turns the passes are made that are left. -/
theorem length_passes_turns {n : Nat} (hn : n ≤ (passes s pass w st).length) :
    (passes s pass ((turn s pass)^[n] (w, st)).1 ((turn s pass)^[n] (w, st)).2).length + n =
      (passes s pass w st).length := by
  induction n with
  | zero => rfl
  | succ n ih =>
    have hex : ((turn s pass)^[n] (w, st)).2.exhausted s = false :=
      not_exhausted_of_lt_length (Nat.lt_of_succ_le hn)
    have hleft := ih (Nat.le_of_succ_le hn)
    rw [passes_of_not_exhausted hex, List.length_cons] at hleft
    rw [Function.iterate_succ_apply']
    exact (Nat.succ_add_eq_add_succ _ n).symm.trans hleft

/-! ## The passes of the loop -/

/-- A pass is made while there is budget left, and its verdict is what comes of so many
executors in its world. -/
theorem mem_passes {p : Made σ} (h : p ∈ passes s pass w st) :
    p.state.exhausted s = false ∧ p.verdict = (pass p.world p.state.executors).2.1 := by
  rw [passes_eq_map, List.mem_map] at h
  obtain ⟨i, hi, rfl⟩ := h
  exact ⟨not_exhausted_of_lt_length (List.mem_range.1 hi), rfl⟩

/-- What holds in the first state, and is kept by the decision upon every pass that is made, holds
before every pass and in the end. -/
theorem passes_invariant {I : State → Prop} (h : I st)
    (hstep : ∀ p ∈ passes s pass w st, I p.state → I (p.state.advance s p.verdict)) :
    (∀ p ∈ passes s pass w st, I p.state) ∧ I (ending s pass w st).2 := by
  induction w, st using passes.induct s pass with
  | case1 w st hex =>
    rw [passes_of_exhausted hex, ending_of_exhausted hex]
    exact ⟨nofun, h⟩
  | case2 w st hex ih =>
    have hex := Bool.eq_false_iff.2 hex
    rw [passes_of_not_exhausted hex] at hstep ⊢
    rw [ending_of_not_exhausted hex]
    rw [List.forall_mem_cons] at hstep
    obtain ⟨hpasses, hend⟩ := ih (hstep.1 h) hstep.2
    exact ⟨List.forall_mem_cons.2 ⟨h, hpasses⟩, hend⟩

/-- The same after each of the turns. -/
theorem turns_invariant {I : State → Prop} (h : I st)
    (hstep : ∀ p ∈ passes s pass w st, I p.state → I (p.state.advance s p.verdict)) {n : Nat}
    (hn : n ≤ (passes s pass w st).length) : I ((turn s pass)^[n] (w, st)).2 := by
  induction n with
  | zero => exact h
  | succ n ih =>
    have hmade : .of pass ((turn s pass)^[n] (w, st)) ∈ passes s pass w st := by
      rw [passes_eq_map]
      exact List.mem_map_of_mem (List.mem_range.2 hn)
    rw [Function.iterate_succ_apply']
    exact hstep _ hmade (ih (Nat.le_of_succ_le hn))

end Loop

end LoadProbe.Pass
