import LoadProbe.Proofs.Pass.Decision
import LoadProbe.Proofs.Pass.History
import LoadProbe.Proofs.Pass.Judgement
import LoadProbe.Rehearsal.ScriptedRuns

/-!
# The optimum of the passes

`Optimal` says which of some results is the best one: it has the most executors, and among those
with as many the least average. The loop ends with the optimum of all passes that have succeeded
(`ending_optimal`), and in the plain mode with the last of them (`ending_last`). That its first
best number, 0, is no such result rests on the passes: without executors no pass succeeds
(`pass_of_nonpos`). That averages are ordered at all does so as well: they are numbers
(`pass_average`). `run_optimum` puts this together for the passes over any launcher.
-/

namespace LoadProbe.Pass

open Number

/-! ## Better results -/

/-- `a` is at least as good as `b`: it has more executors, or as many and an average that is no
greater. -/
def Best.Covers (a b : Best) : Prop :=
  b.executors < a.executors ∨ b.executors = a.executors ∧ a.average ≤ b.average

/-- The average is a number. -/
def Best.Measured (b : Best) : Prop :=
  exact b.average ≠ .notANumber

namespace Best

variable {a b c : Best}

theorem Covers.refl (h : a.Measured) : a.Covers a :=
  .inr ⟨rfl, le_iff.2 ⟨h, h, le_rfl⟩⟩

theorem Covers.trans (hab : a.Covers b) (hbc : b.Covers c) : a.Covers c := by
  rcases hab with hab | ⟨hab, hle⟩ <;> rcases hbc with hbc | ⟨hbc, hle'⟩
  · exact .inl (hbc.trans hab)
  · exact .inl (hbc.trans_lt hab)
  · exact .inl (hbc.trans_eq hab)
  · obtain ⟨ha, -, h⟩ := le_iff.1 hle
    obtain ⟨-, hc, h'⟩ := le_iff.1 hle'
    exact .inr ⟨hbc.trans hab, le_iff.2 ⟨ha, hc, h.trans h'⟩⟩

theorem Covers.executors_le (h : a.Covers b) : b.executors ≤ a.executors := by
  rcases h with h | ⟨h, -⟩
  · exact h.le
  · exact h.le

end Best

/-- What the decision takes for an improvement is at least as good as the best result, and anything
else is covered by it. -/
theorem State.covers_of_improves {st : State} {r : Best} (hst : st.best.Measured)
    (hr : r.Measured) :
    if st.improves r.executors r.average then r.Covers st.best else st.best.Covers r := by
  unfold State.improves
  split <;> rename_i h <;>
    simp only [Bool.or_eq_true, Bool.and_eq_true, decide_eq_true_eq, not_or, not_and, not_lt] at h
  · rcases h with h | ⟨heq, hlt⟩
    · exact .inl h
    · obtain ⟨hx, hy, h⟩ := lt_iff.1 hlt
      exact .inr ⟨heq.symm, le_iff.2 ⟨hx, hy, h.le⟩⟩
  · obtain ⟨hle, hnot⟩ := h
    rcases lt_or_eq_of_le hle with hlt | heq
    · exact .inl hlt
    · refine .inr ⟨heq, le_iff.2 ⟨hst, hr, le_of_not_gt fun hlt => ?_⟩⟩
      exact hnot heq (lt_iff.2 ⟨hr, hst, hlt⟩)

/-! ## The passes that have succeeded -/

/-- The result of a pass: its executors and their average time. -/
def Made.result {σ : Type} (p : Made σ) : Best :=
  ⟨p.state.executors, p.verdict.average⟩

/-- The results of the passes that have succeeded, in the order in which they were made. -/
def successes {σ : Type} (made : List (Made σ)) : List Best :=
  (made.filter (·.verdict.success)).map Made.result

/-- Of some results this one has the most executors, and among those with as many the least
average. -/
structure Optimal (results : List Best) (best : Best) : Prop where
  mem : best ∈ results
  most : ∀ r ∈ results, r.executors ≤ best.executors
  least : ∀ r ∈ results, r.executors = best.executors → best.average ≤ r.average

/-- The order of the results does not matter. -/
theorem Optimal.perm {results others : List Best} {best : Best} (h : Optimal results best)
    (hperm : results.Perm others) : Optimal others best where
  mem := hperm.mem_iff.1 h.mem
  most r hr := h.most r (hperm.mem_iff.2 hr)
  least r hr := h.least r (hperm.mem_iff.2 hr)

theorem optimal_of_covers {results : List Best} {best : Best} (hmem : best ∈ results)
    (h : ∀ r ∈ results, best.Covers r) : Optimal results best where
  mem := hmem
  most r hr := (h r hr).executors_le
  least r hr heq := by
    rcases h r hr with hlt | ⟨-, hle⟩
    · exact absurd heq hlt.ne
    · exact hle

variable {σ : Type} {s : Settings}

theorem successes_cons_of_pos {p : Made σ} {made : List (Made σ)} (h : p.verdict.success = true) :
    successes (p :: made) = p.result :: successes made := by
  simp only [successes, List.filter_cons, h, if_true, List.map_cons]

theorem successes_cons_of_neg {p : Made σ} {made : List (Made σ)} (h : p.verdict.success = false) :
    successes (p :: made) = successes made := by
  simp only [successes, List.filter_cons, h, Bool.false_eq_true, if_false]

theorem mem_successes {made : List (Made σ)} {r : Best} :
    r ∈ successes made ↔ ∃ p ∈ made, p.verdict.success = true ∧ p.result = r := by
  simp only [successes, List.mem_map, List.mem_filter, and_assoc]

section Loop

variable {pass : σ → Int → σ × Verdict × List Notice} {w : σ} {st : State}

/-- After a success the best result covers the one before and the new one, and is one of them. -/
theorem Made.covers_advance {p : Made σ} (hc : s.compat = false) (hv : p.verdict.success = true)
    (hst : p.state.best.Measured) (hp : p.result.Measured) :
    let best := (p.state.advance s p.verdict).best
    best.Covers p.state.best ∧ best.Covers p.result ∧ (best = p.state.best ∨ best = p.result) := by
  have hcovers := State.covers_of_improves hst hp
  simp only [State.advance, hv, hc, if_true, Bool.false_or]
  split at hcovers <;> rename_i himp <;> simp only [Made.result] at himp
  · rw [if_pos himp]
    exact ⟨hcovers, .refl hp, .inr rfl⟩
  · rw [if_neg himp]
    exact ⟨.refl hst, hcovers, .inl rfl⟩

/-- The loop ends with a result that covers the first one and those of all passes that have
succeeded, and is one of them. -/
theorem ending_covers (hc : s.compat = false) (hst : st.best.Measured)
    (hmade : ∀ p ∈ passes s pass w st, p.result.Measured) :
    (∀ r ∈ st.best :: successes (passes s pass w st), (ending s pass w st).2.best.Covers r) ∧
      (ending s pass w st).2.best ∈ st.best :: successes (passes s pass w st) := by
  induction w, st using passes.induct s pass with
  | case1 w st hex =>
    rw [passes_of_exhausted hex, ending_of_exhausted hex]
    exact ⟨List.forall_mem_singleton.2 (.refl hst), List.mem_singleton_self _⟩
  | case2 w st hex ih =>
    have hex := Bool.eq_false_iff.2 hex
    rw [passes_of_not_exhausted hex, List.forall_mem_cons] at hmade
    rw [passes_of_not_exhausted hex, ending_of_not_exhausted hex]
    cases hv : (Made.of pass (w, st)).verdict.success with
    | false =>
      have hsame : (turn s pass (w, st)).2.best = st.best := State.best_of_failure s st hv
      rw [successes_cons_of_neg hv, ← hsame]
      exact ih (hsame ▸ hst) hmade.2
    | true =>
      obtain ⟨hold, hnew, hone⟩ := Made.covers_advance hc hv hst hmade.1
      change (turn s pass (w, st)).2.best = st.best ∨ (turn s pass (w, st)).2.best = _ at hone
      have hmeasured : (turn s pass (w, st)).2.best.Measured := by
        rcases hone with h | h
        · exact h.symm ▸ hst
        · exact h.symm ▸ hmade.1
      obtain ⟨hcovers, hmem⟩ := ih hmeasured hmade.2
      rw [List.forall_mem_cons] at hcovers
      rw [successes_cons_of_pos hv]
      refine ⟨?_, ?_⟩
      · rw [List.forall_mem_cons, List.forall_mem_cons]
        exact ⟨hcovers.1.trans hold, hcovers.1.trans hnew, hcovers.2⟩
      · rcases List.mem_cons.1 hmem with h | h
        · rw [h]
          rcases hone with h | h
          · rw [h]
            exact List.mem_cons_self
          · rw [h]
            exact List.mem_cons_of_mem _ List.mem_cons_self
        · exact List.mem_cons_of_mem _ (List.mem_cons_of_mem _ h)

/-- The loop ends with the optimum of the passes that have succeeded, or with 0 when none has. -/
theorem ending_optimal (hc : s.compat = false)
    (hempty : ∀ p ∈ passes s pass w (.initial s.initial), p.state.executors ≤ 0 →
      p.verdict = .noRuns)
    (hmade : ∀ p ∈ passes s pass w (.initial s.initial), p.result.Measured) :
    let results := successes (passes s pass w (.initial s.initial))
    let best := (ending s pass w (.initial s.initial)).2.best
    (results = [] → best = ⟨0, 0.0⟩) ∧ (results ≠ [] → Optimal results best) := by
  intro results best
  have hpos : ∀ r ∈ results, 0 < r.executors := by
    intro r hr
    obtain ⟨p, hp, hv, rfl⟩ := mem_successes.1 hr
    by_contra hle
    rw [hempty p hp (not_lt.1 hle)] at hv
    exact absurd hv Bool.false_ne_true
  have hzero : (State.initial s.initial).best.Measured := by
    show exact 0.0 ≠ .notANumber
    rw [exact_zero]
    exact nofun
  obtain ⟨hcovers, hmem⟩ := ending_covers (s := s) (w := w) hc hzero hmade
  rw [List.forall_mem_cons] at hcovers
  rcases List.mem_cons.1 hmem with hbest | hbest
  · refine ⟨fun _ => hbest, fun hne => ?_⟩
    obtain ⟨r, hr⟩ := List.exists_mem_of_ne_nil results hne
    have hle := (hcovers.2 r hr).executors_le
    rw [hbest] at hle
    exact absurd (hpos r hr) (not_lt.2 hle)
  · refine ⟨fun hnil => ?_, fun _ => optimal_of_covers hbest hcovers.2⟩
    rw [show successes (passes s pass w (.initial s.initial)) = [] from hnil] at hbest
    exact absurd hbest List.not_mem_nil

/-- In the plain mode the loop ends with the last pass that has succeeded. -/
theorem ending_last (hc : s.compat = true) :
    (ending s pass w st).2.best = (successes (passes s pass w st)).getLastD st.best := by
  induction w, st using passes.induct s pass with
  | case1 w st hex =>
    rw [passes_of_exhausted hex, ending_of_exhausted hex]
    rfl
  | case2 w st hex ih =>
    have hex := Bool.eq_false_iff.2 hex
    rw [passes_of_not_exhausted hex, ending_of_not_exhausted hex, ih]
    cases hv : (Made.of pass (w, st)).verdict.success with
    | false =>
      have hsame : (turn s pass (w, st)).2.best = st.best := State.best_of_failure s st hv
      rw [successes_cons_of_neg hv, hsame]
    | true =>
      have hnew : (turn s pass (w, st)).2.best = (Made.of pass (w, st)).result := by
        have hv : (pass w st.executors).2.1.success = true := hv
        simp only [turn, State.advance, hv, hc, if_true, Bool.true_or]
        rfl
      rw [successes_cons_of_pos hv, hnew, List.getLastD_cons]

end Loop

/-! ## Passes over a launcher -/

/-- The average in a verdict is a number: times are added up in a word, and divided by the number of
normal runs only when there are some. -/
theorem Terms.verdict_average (t : Terms) (received overtime : Nat) (total : UInt64) :
    exact (t.verdict received overtime total).average ≠ .notANumber := by
  simp only [Terms.verdict]
  split
  · rw [exact_zero]
    intro h
    cases h
  · rename_i hne
    rw [toFloat_eq]
    exact quotient_ne_notANumber total.toNat_lt (Nat.pos_of_ne_zero hne)

/-- The average of a pass is a number. -/
theorem pass_average (l : Launcher σ) (s : Settings) (threshold : Float) (w : σ) (executors : Int) :
    exact (pass l s threshold w executors).2.1.average ≠ .notANumber := by
  have hnone : exact Verdict.noRuns.average ≠ .notANumber := by
    rw [Verdict.noRuns, exact_zero]
    exact nofun
  rcases le_or_gt executors 0 with hle | hpos
  · rwa [pass_of_nonpos hle]
  · rw [pass_verdict hpos]
    split
    · exact hnone
    · exact Terms.verdict_average _ _ _ _

/-- The best number of a scenario is the optimum of the passes that have succeeded, whatever their
order, and in the plain mode that of the last one. When none has succeeded, it is 0. -/
theorem run_optimum (l : Launcher σ) (s : Settings) (w : σ) (baseline : Float) :
    let results := successes (passes s (pass l s (baseline * s.overtime)) w (.initial s.initial))
    let best := (run l s w baseline).2.1
    (s.compat = false →
      (results = [] → best = ⟨0, 0.0⟩) ∧
      (results ≠ [] → ∀ others, results.Perm others → Optimal others best)) ∧
    (s.compat = true → best = results.getLastD ⟨0, 0.0⟩) := by
  intro results best
  refine ⟨fun hc => ?_, fun hc => ending_last hc⟩
  have hempty : ∀ p ∈ passes s (pass l s (baseline * s.overtime)) w (.initial s.initial),
      p.state.executors ≤ 0 → p.verdict = .noRuns :=
    fun p hp hle => (mem_passes hp).2.trans (pass_of_nonpos hle)
  have hmeasured : ∀ p ∈ passes s (pass l s (baseline * s.overtime)) w (.initial s.initial),
      p.result.Measured := by
    intro p hp
    rw [Best.Measured, Made.result, (mem_passes hp).2]
    exact pass_average _ _ _ _ _
  obtain ⟨hnone, hsome⟩ := ending_optimal hc hempty hmeasured
  exact ⟨hnone, fun hne others hperm => (hsome hne).perm hperm⟩

/-- Settings that make two passes of 2 executors as long as no pass fails. -/
def holding : Settings where
  initial := 2
  upper := 2
  expand := 2.0
  refine := 1.5
  shrink := 0.5
  overtime := 2.0
  success := 1.0
  maxRefine := 2
  compat := false

/-- Runs that take 9 ms at first, and then 7 ms. -/
def unsteady : Timeline Rehearsal.ScriptedRuns Rehearsal.ScriptedRuns.Stage :=
  .start ⟨[9, 9, 7, 7].map fun millis => .outcome ⟨.success, millis⟩, .crash, false, .none⟩

/-- Two passes of as many executors succeed, the second one faster than the first, and the best
number is the optimum of them. -/
theorem run_optimum_holding :
    let pass := pass Rehearsal.ScriptedRuns.launcher holding (9.0 * holding.overtime)
    let results := successes (passes holding pass unsteady (.initial holding.initial))
    results.map (fun r => (r.executors, decide (r.average < 8.0))) = [(2, false), (2, true)] ∧
      Optimal results (run Rehearsal.ScriptedRuns.launcher holding unsteady 9.0).2.1 := by
  intro pass results
  have hresults : results.map (fun r => (r.executors, decide (r.average < 8.0))) =
      [(2, false), (2, true)] := by
    simp only [results, pass]
    rw [passes_of_not_exhausted (by decide +kernel), passes_of_not_exhausted (by decide +kernel),
      passes_of_exhausted (by decide +kernel)]
    decide +kernel
  obtain ⟨hbounded, -⟩ := run_optimum Rehearsal.ScriptedRuns.launcher holding unsteady 9.0
  refine ⟨hresults, (hbounded rfl).2 (fun hnil => ?_) results (.refl _)⟩
  rw [show results = [] from hnil] at hresults
  cases hresults

end LoadProbe.Pass
