import LoadProbe.Proofs.Pass.Decision
import LoadProbe.Proofs.Pass.History
import LoadProbe.Proofs.Pass.Judgement

/-!
# The best number of executors

What the loop ends with is either no number at all, and then no pass has succeeded, or the number of
executors of a pass that was made (`Backed`), and no pass with more executors has succeeded
(`executors_le_ending`). A pass that succeeds over a launcher has launched that many runs, none of
them crashed, and its average is that of its normal runs (`Succeeded`). `run_best` puts both
together.
-/

namespace LoadProbe.Pass

variable {σ : Type} {s : Settings}

/-! ## Any passes -/

section Loop

variable {pass : σ → Int → σ × Verdict × List Notice} {w : σ} {st : State}

/-- The best number is 0, or a pass with this number and this average has succeeded. -/
structure Backed (made : List (Made σ)) (best : Best) : Prop where
  nonneg : 0 ≤ best.executors
  pass : 0 < best.executors → ∃ p ∈ made, p.verdict.success = true ∧
    best = ⟨p.state.executors, p.verdict.average⟩

/-- The loop ends with the number of a pass that it has made. -/
theorem ending_backed
    (hpos : ∀ p ∈ passes s pass w (.initial s.initial), p.verdict.success = true →
      0 < p.state.executors) :
    Backed (passes s pass w (.initial s.initial))
      (ending s pass w (.initial s.initial)).2.best := by
  refine (passes_invariant (I := fun st =>
    Backed (passes s pass w (.initial s.initial)) st.best) ?_ ?_).2
  · exact ⟨le_refl _, fun h => absurd h (lt_irrefl _)⟩
  · intro p hp h
    rcases State.best_advance s p.state p.verdict with hsame | ⟨hv, hnew⟩
    · rwa [hsame]
    · rw [hnew]
      exact ⟨(hpos p hp hv).le, fun _ => ⟨p, hp, hv, rfl⟩⟩

/-- No pass with more executors than the best number has succeeded. -/
theorem executors_le_ending (hc : s.compat = false) :
    st.best.executors ≤ (ending s pass w st).2.best.executors ∧
      ∀ p ∈ passes s pass w st, p.verdict.success = true →
        p.state.executors ≤ (ending s pass w st).2.best.executors := by
  induction w, st using passes.induct s pass with
  | case1 w st hex =>
    rw [passes_of_exhausted hex, ending_of_exhausted hex]
    exact ⟨le_refl _, List.forall_mem_nil _⟩
  | case2 w st hex ih =>
    have hex := Bool.eq_false_iff.2 hex
    obtain ⟨hbest, hlater⟩ := ih
    rw [passes_of_not_exhausted hex, ending_of_not_exhausted hex, List.forall_mem_cons]
    have hnow : st.best.executors ≤ (turn s pass (w, st)).2.best.executors ∧
        ((Made.of pass (w, st)).verdict.success = true →
          st.executors ≤ (turn s pass (w, st)).2.best.executors) := by
      cases hv : (Made.of pass (w, st)).verdict.success with
      | false =>
        have hsame : (turn s pass (w, st)).2.best = st.best := State.best_of_failure s st hv
        rw [hsame]
        exact ⟨le_refl _, fun h => absurd h Bool.false_ne_true⟩
      | true =>
        have hmax : (turn s pass (w, st)).2.best.executors = max st.best.executors st.executors :=
          State.executors_best_of_success st hc hv
        rw [hmax]
        exact ⟨le_max_left _ _, fun _ => le_max_right _ _⟩
    exact ⟨hnow.1.trans hbest, fun hv => (hnow.2 hv).trans hbest, hlater⟩

end Loop

/-! ## Passes over a launcher -/

/-- A pass with these events has succeeded with this average: all its runs were over and none of
them crashed, some were normal, their share is large enough, and the average is that of their
times. -/
structure Succeeded (t : Terms) (events : List Event) (average : Float) : Prop where
  launched : (fates events).length = t.expected
  noCrash : .crash ∉ fates events
  normal : 1 ≤ (t.times (outcomes events)).length
  share : t.lowestRatio ≤
    Float.ofNat (t.times (outcomes events)).length / Float.ofNat t.expected
  average : ((t.times (outcomes events)).map (·.toNat)).sum < 2 ^ 64 →
    average = Float.ofNat ((t.times (outcomes events)).map (·.toNat)).sum /
      Float.ofNat (t.times (outcomes events)).length

/-- A verdict of success is one on such a pass. -/
theorem judge_succeeded {t : Terms} {events : List Event} (hpos : 0.0 < t.lowestRatio)
    (hlaunched : (fates events).length = t.expected) (hexpected : 0 < t.expected)
    (hcrash : .crash ∉ fates events) (h : (t.judge (outcomes events)).success = true) :
    Succeeded t events (t.judge (outcomes events)).average := by
  have hlength := length_outcomes events
  rw [List.count_eq_zero.2 hcrash, Nat.add_zero, hlaunched] at hlength
  have hos : outcomes events ≠ [] := List.ne_nil_of_length_pos (by omega)
  have htimes := Terms.times_ne_nil_of_success hpos hos h
  refine ⟨hlaunched, hcrash, List.length_pos_iff.2 htimes, ?_, ?_⟩
  · rw [Terms.judge_success, Terms.judge_ratio hos, hlength] at h
    exact h
  · intro hsum
    rw [Terms.judge_average hsum, if_neg htimes]

section Launched

variable {l : Launcher σ} {threshold : Float} {w : σ} {executors : Int}

/-- A pass that succeeds has executors, and its runs have succeeded. -/
theorem pass_succeeded (hs : 0.0 < s.success)
    (h : (pass l s threshold w executors).2.1.success = true) :
    0 < executors ∧ Succeeded (passTerms s threshold executors.toNat)
      (l.together w executors.toNat).2 (pass l s threshold w executors).2.1.average := by
  have hpos : 0 < executors := by
    by_contra hle
    rw [pass_of_nonpos (not_lt.1 hle)] at h
    exact absurd h Bool.false_ne_true
  refine ⟨hpos, ?_⟩
  rw [pass_verdict hpos] at h ⊢
  split at h
  · exact absurd h Bool.false_ne_true
  · rename_i hcrash
    rw [if_neg hcrash]
    exact judge_succeeded hs (l.complete w _) (Int.pos_iff_toNat_pos.1 hpos) hcrash h

/-- The best number of a scenario is that of a pass that has succeeded, or 0 when no pass has. -/
theorem run_best (l : Launcher σ) (s : Settings) (w : σ) (baseline : Float)
    (hs : 0.0 < s.success) (hc : s.compat = false) :
    let threshold := baseline * s.overtime
    let made := passes s (pass l s threshold) w (.initial s.initial)
    let best := (run l s w baseline).2.1
    0 ≤ best.executors ∧
      (0 < best.executors → ∃ p ∈ made, p.state.executors = best.executors ∧
        Succeeded (passTerms s threshold best.executors.toNat)
          (l.together p.world best.executors.toNat).2 best.average) ∧
      (best.executors = 0 → ∀ p ∈ made, p.verdict.success = false) := by
  intro threshold made best
  have hsucceeded : ∀ p ∈ made, p.verdict.success = true → 0 < p.state.executors ∧
      Succeeded (passTerms s threshold p.state.executors.toNat)
        (l.together p.world p.state.executors.toNat).2 p.verdict.average := by
    intro p hp hv
    rw [(mem_passes hp).2] at hv ⊢
    exact pass_succeeded hs hv
  have hbacked : Backed made best := ending_backed fun p hp hv => (hsucceeded p hp hv).1
  have hle : ∀ p ∈ made, p.verdict.success = true → p.state.executors ≤ best.executors :=
    (executors_le_ending hc).2
  refine ⟨hbacked.nonneg, ?_, ?_⟩
  · intro hbest
    obtain ⟨p, hp, hv, heq⟩ := hbacked.pass hbest
    rw [heq]
    exact ⟨p, hp, rfl, (hsucceeded p hp hv).2⟩
  · intro hzero p hp
    cases hv : p.verdict.success with
    | false => rfl
    | true =>
      have := (hsucceeded p hp hv).1
      have := hle p hp hv
      omega

end Launched

end LoadProbe.Pass
