import LoadProbe.Proofs.Pass.Judgement
import LoadProbe.Proofs.Pass.Shrinking

/-!
# Passes without executors

A pass of a number of executors that is not positive starts no run and fails, and shrinking takes
such a number to one that is not positive either (`State.shrunk_nonpos`). So once the number is not
positive it never is again: nothing happens to the world or the best number any more
(`Idle.turns`), and every pass that is left is charged, which spends the budget one by one
(`Plan.Sound.standstill`). With a factor of at most 1 the number goes up and down below zero, but
below by no more than what was charged (`State.Shallow`).
-/

namespace LoadProbe.Pass

variable {s : Settings} {st : State} {v : Verdict}

/-! ## One decision -/

/-- Shrinking takes no number of executors above zero. -/
theorem State.shrunk_nonpos (hf : 0.0 < s.shrink) (h : st.executors ≤ 0) : st.shrunk s ≤ 0 := by
  have hscale := scale_nonpos hf h
  rcases st.shrunk_cases s with ⟨-, hnext⟩ | ⟨-, hnext⟩ <;> omega

/-- The number of executors lies below zero by at most what was charged. -/
def State.Shallow (st : State) : Prop :=
  0 ≤ st.executors + st.passIndex

/-- A factor of at most 1 takes a number further below zero by the correction at most. -/
theorem State.Shallow.shrunk (hf : 0.0 < s.shrink) (hle : s.shrink ≤ 1.0)
    (hindex : st.passIndex < 2 ^ 53) (h : st.Shallow) : 0 ≤ st.shrunk s + st.passIndex + 1 := by
  unfold Shallow at h
  have hcases := st.shrunk_cases s
  rcases le_or_gt 0 st.executors with hpos | hneg
  · have hscale := scale_nonneg hf hpos
    omega
  · have hback := le_scale_of_nonpos hf hle hneg.le (by omega)
    omega

/-- No decision takes the number of executors further below zero than it charges. -/
theorem State.Shallow.advance (hf : 0.0 < s.shrink) (hle : s.shrink ≤ 1.0) (hupper : 0 ≤ s.upper)
    (hindex : st.passIndex < 2 ^ 53) (v : Verdict) (h : st.Shallow) : (st.advance s v).Shallow := by
  cases hv : v.success with
  | false =>
    have hshrunk := h.shrunk hf hle hindex
    rw [Shallow, executors_of_failure s st hv, passIndex_of_failure s st hv]
    push_cast
    omega
  | true =>
    have hgrown := st.min_le_grown s
    unfold Shallow at h ⊢
    rw [executors_of_success s st hv, passIndex_advance]
    split <;> push_cast <;> omega

/-! ## The turns that are left -/

section Idle

variable {σ : Type} {pass : σ → Int → σ × Verdict × List Notice}

/-- Without executors a pass leaves the world alone and fails. -/
def IdlesAtZero (pass : σ → Int → σ × Verdict × List Notice) : Prop :=
  ∀ w k, k ≤ 0 → (pass w k).1 = w ∧ (pass w k).2.1.success = false

/-- Nothing but charges has come of so many turns after `c`, and there are no executors. -/
structure Idle (c : σ × State) (turns : Nat) (c' : σ × State) : Prop where
  world : c'.1 = c.1
  best : c'.2.best = c.2.best
  executors : c'.2.executors ≤ 0
  passIndex : c'.2.passIndex = c.2.passIndex + turns

theorem Idle.turn (hidle : IdlesAtZero pass) (hf : 0.0 < s.shrink) {c c' : σ × State} {n : Nat}
    (h : Idle c n c') : Idle c (n + 1) (turn s pass c') := by
  obtain ⟨hworld, hv⟩ := hidle c'.1 c'.2.executors h.executors
  refine ⟨hworld.trans h.world, ?_, ?_, ?_⟩
  · rw [Pass.turn, State.best_of_failure s _ hv, h.best]
  · rw [Pass.turn, State.executors_of_failure s _ hv]
    exact State.shrunk_nonpos hf h.executors
  · rw [Pass.turn, State.passIndex_of_failure s _ hv, h.passIndex]
    rfl

theorem Idle.turns (hidle : IdlesAtZero pass) (hf : 0.0 < s.shrink) {c : σ × State}
    (h : c.2.executors ≤ 0) (n : Nat) : Idle c n ((Pass.turn s pass)^[n] c) := by
  induction n with
  | zero => exact ⟨rfl, rfl, h, rfl⟩
  | succ n ih =>
    rw [Function.iterate_succ_apply']
    exact ih.turn hidle hf

/-- The passes that are left spend the budget one by one. -/
theorem length_passes_of_idle (hidle : IdlesAtZero pass) (hf : 0.0 < s.shrink) {w : σ}
    (h : st.executors ≤ 0) : (passes s pass w st).length = s.maxRefine - st.passIndex := by
  have hindex (n : Nat) := (Idle.turns (c := (w, st)) hidle hf h n).passIndex
  refine length_passes_eq (fun n hn => State.not_exhausted_of_lt ?_) ?_
  · rw [hindex]
    exact Nat.add_lt_of_lt_sub' hn
  · rw [State.exhausted, hindex, decide_eq_true_iff]
    exact le_add_tsub

end Idle

theorem idlesAtZero_pass {σ : Type} (l : Launcher σ) (s : Settings) (threshold : Float) :
    IdlesAtZero (pass l s threshold) := by
  intro w k hk
  rw [pass_empty hk]
  exact ⟨rfl, rfl⟩

end LoadProbe.Pass

namespace LoadProbe

open Pass

/-! ## The passes of a plan -/

/-- With a factor of at most 1 no number of executors lies further below zero than was charged
before. -/
theorem Plan.Sound.shallow {p : Plan} (hp : p.Sound) (hw : p.InWords)
    (hle : p.settings.shrink ≤ 1.0) {σ : Type} {pass : σ → Int → σ × Verdict × List Notice} {w : σ}
    {n : Nat} (hn : n ≤ (passes p.settings pass w (.initial p.settings.initial)).length) :
    ((turn p.settings pass)^[n] (w, .initial p.settings.initial)).2.Shallow := by
  obtain ⟨hone, hupper⟩ := hp.initial_mem
  have hfirst : (State.initial p.settings.initial).Shallow := by
    show 0 ≤ p.settings.initial + 0
    omega
  refine turns_invariant hfirst (fun q hq h => ?_) hn
  have hindex := State.lt_of_not_exhausted (mem_passes hq).1
  have hbudget : (p.settings.maxRefine : Int) ≤ 4294967295 :=
    (Number.Range.contains_iff.1 hw.maxRefine).2
  exact h.advance (hp.factor_pos .shrink) hle (by omega) (by omega) q.verdict

/-- Once a plan with a shrinking factor of at most 1 has come to a number of executors that is not
positive, it makes as many passes as there is budget left. None of them starts a run, whatever would
start runs: each leaves the world alone and says that it was empty. The number of executors stays
in its word and never becomes positive again, and the best number is the one that the plan ends
with. -/
theorem Plan.Sound.standstill {p : Plan} (hp : p.Sound) (hw : p.InWords)
    (hle : p.settings.shrink ≤ 1.0) {σ : Type} (l : Launcher σ) (w : σ) (baseline : Float) :
    let s := p.settings
    let pass := pass l s (baseline * s.overtime)
    let made := passes s pass w (.initial s.initial)
    let reached (n : Nat) := (turn s pass)^[n] (w, .initial s.initial)
    ∀ n ≤ made.length, (reached n).2.executors ≤ 0 →
      (reached n).2.passIndex + (made.length - n) = s.maxRefine ∧
      (∀ m, n ≤ m → m ≤ made.length →
        (reached m).1 = (reached n).1 ∧ (reached m).2.best = (reached n).2.best ∧
        (-(reached m).2.passIndex : Int) ≤ (reached m).2.executors ∧
        (reached m).2.executors ≤ 0 ∧
        pass (reached m).1 (reached m).2.executors =
          ((reached m).1, .noRuns, [.passEmpty (reached m).2.executors])) ∧
      (run l s w baseline).1 = (reached n).1 ∧
      (run l s w baseline).2.1 = (reached n).2.best := by
  intro s pass made reached n hn hzero
  have hf := hp.factor_pos .shrink
  have hpass : IdlesAtZero pass := idlesAtZero_pass l s (baseline * s.overtime)
  have hidle {m : Nat} (hm : n ≤ m) : Idle (reached n) (m - n) (reached m) := by
    have hturns := Idle.turns hpass hf hzero (m - n)
    rwa [← Function.iterate_add_apply, Nat.sub_add_cancel hm] at hturns
  refine ⟨?_, fun m hnm hm => ?_, ?_⟩
  · have hleft : (passes s pass (reached n).1 (reached n).2).length + n = made.length :=
      length_passes_turns hn
    rw [length_passes_of_idle hpass hf hzero] at hleft
    have hindex : (reached n).2.passIndex ≤ s.maxRefine :=
      turns_invariant (I := (·.passIndex ≤ s.maxRefine)) (Nat.zero_le _)
        (fun q hq _ => State.passIndex_advance_le (mem_passes hq).1 q.verdict) hn
    have hbudget : p.settings.maxRefine = s.maxRefine := rfl
    omega
  · obtain ⟨hworld, hbest, hdown, -⟩ := hidle hnm
    have hshallow : 0 ≤ (reached m).2.executors + (reached m).2.passIndex := hp.shallow hw hle hm
    exact ⟨hworld, hbest, by omega, hdown, pass_empty hdown⟩
  · have hend : ending s pass w (.initial s.initial) = reached made.length := ending_eq_turns
    obtain ⟨hworld, hbest, -, -⟩ := hidle hn
    rw [← hworld, ← hbest, ← hend]
    exact ⟨rfl, rfl⟩

/-- With factor 0.5 the first pass fails, and the second one has no executors. It is one of the 4
passes that are left, and nothing is found. -/
theorem Plan.Sound.standstill_halving :
    let s := (shrinkingPlan 0.5 5).settings
    let pass := pass Rehearsal.ScriptedRuns.launcher s (100.0 * s.overtime)
    let second := turn s pass (failingAlways, .initial s.initial)
    second.2.executors = 0 ∧
      (passes s pass failingAlways (.initial s.initial)).length = 5 ∧
      (run Rehearsal.ScriptedRuns.launcher s failingAlways 100.0).2.1.executors = 0 := by
  intro s pass second
  have hzero : second.2.executors = 0 := by decide +kernel
  have hfirst : 1 ≤ (passes s pass failingAlways (.initial s.initial)).length := by
    rw [passes_of_not_exhausted (by decide +kernel), List.length_cons]
    exact Nat.le_add_left 1 _
  obtain ⟨hleft, -, -, hbest⟩ := Plan.Sound.standstill (p := shrinkingPlan 0.5 5)
    (by decide +kernel) (by decide +kernel) (by decide +kernel) Rehearsal.ScriptedRuns.launcher
    failingAlways 100.0 1 hfirst hzero.le
  refine ⟨hzero, ?_, ?_⟩
  · have hindex : second.2.passIndex = 1 := by decide +kernel
    have hbudget : s.maxRefine = 5 := rfl
    have hleft : second.2.passIndex + ((passes s pass failingAlways (.initial s.initial)).length -
      1) = s.maxRefine := hleft
    omega
  · have hnone : second.2.best.executors = 0 := by decide +kernel
    have hbest : (run Rehearsal.ScriptedRuns.launcher s failingAlways 100.0).2.1 =
      second.2.best := hbest
    rw [hbest, hnone]

end LoadProbe
