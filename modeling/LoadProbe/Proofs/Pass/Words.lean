import LoadProbe.Proofs.Pass.Standstill

/-!
# Numbers of executors and their words

Scaling ends in a word of 64 bits, but the corrections by 1 and 2 are made afterwards. They leave the
word in two places only (`State.fits_iff_of_charged`): a success at one of the two greatest numbers grows above
it, and a failure at the least number shrinks below it when scaling leaves that number alone, which
the factors of at least 1 do. So a factor of at most 1 never shrinks below the word, as no number
lies further below zero than was charged (`State.Shallow`), and in the complete mode nothing ever
grows above it from a bound that is not next to its end (`Plan.Sound.fits_iff`). With a factor above
1 the failed passes without executors go down to the end of the word (`shrinkingPlan_overflows`).
-/

namespace LoadProbe.Pass

open Number

variable {s : Settings} {st : State} {v : Verdict}

/-! ## One decision -/

/-- The factor that a success scales by. -/
def State.growth (s : Settings) (st : State) : Float :=
  if st.hasFailed then s.refine else s.expand

/-- Every sum that a decision computes lies in the word that it is computed in. -/
structure State.Fits (s : Settings) (st : State) (v : Verdict) : Prop where
  /-- What a success compares the scaled number with. -/
  compared : v.success = true → signed64.contains (st.executors + 1) = true
  /-- What a success takes instead when the scaled number is no greater. -/
  grown : v.success = true → scale st.executors (st.growth s) ≤ st.executors + 1 →
    signed64.contains (st.executors + 2) = true
  /-- What a failure takes when the scaled number is the same. -/
  shrunk : v.success = false → scale st.executors s.shrink = st.executors →
    signed64.contains (st.executors - 1) = true
  charged : unsigned32.contains (st.passIndex + 1) = true

theorem contains_signed64_iff {k : Int} : signed64.contains k = true ↔ -2 ^ 63 ≤ k ∧ k < 2 ^ 63 := by
  rw [Range.contains_iff, show signed64.lo = -2 ^ 63 by decide,
    show signed64.hi = 2 ^ 63 - 1 by decide]
  omega

/-- A success fits unless it is one of the two greatest numbers of executors. -/
theorem State.grown_fits_iff (s : Settings) (hpos : 0 < st.executors) :
    (signed64.contains (st.executors + 1) = true ∧
      (scale st.executors (st.growth s) ≤ st.executors + 1 →
        signed64.contains (st.executors + 2) = true)) ↔ st.executors < 2 ^ 63 - 2 := by
  have hword := contains_signed64_iff.1 (contains_scale st.executors (st.growth s))
  rw [contains_signed64_iff, contains_signed64_iff]
  omega

/-- A failure fits unless it is the least number of executors and the factor is at least 1. -/
theorem State.shrunk_fits_iff (st : State) (hf : 0.0 < s.shrink) :
    (scale st.executors s.shrink = st.executors →
      signed64.contains (st.executors - 1) = true) ↔
    ¬(st.executors = -2 ^ 63 ∧ 1.0 ≤ s.shrink) := by
  have hlowest := scale_lowest_iff hf
  have hword := contains_signed64_iff.1 (contains_scale st.executors s.shrink)
  rw [show signed64.lo = -2 ^ 63 by decide] at hlowest
  rw [contains_signed64_iff]
  constructor
  · rintro hfits ⟨hleast, hle⟩
    have hsame : scale st.executors s.shrink = st.executors := by rw [hleast, hlowest.2 hle]
    have := hfits hsame
    omega
  · intro hother hsame
    rw [hsame] at hword
    have hne : st.executors ≠ -2 ^ 63 := by
      intro hleast
      rw [hleast] at hsame
      exact hother ⟨hleast, hlowest.1 hsame⟩
    omega

/-- A decision fits unless it is one of these. -/
theorem State.fits_iff_of_charged (hf : 0.0 < s.shrink)
    (hcharged : unsigned32.contains (st.passIndex + 1) = true)
    (hempty : st.executors ≤ 0 → v.success = false) :
    st.Fits s v ↔
      (v.success = true → st.executors < 2 ^ 63 - 2) ∧
      (v.success = false → ¬(st.executors = -2 ^ 63 ∧ 1.0 ≤ s.shrink)) := by
  cases hv : v.success with
  | true =>
    have hpos : 0 < st.executors := by
      by_contra hle
      rw [hempty (not_lt.1 hle)] at hv
      cases hv
    have hgrown := grown_fits_iff s hpos
    refine ⟨fun h => ⟨fun _ => hgrown.1 ⟨h.compared hv, h.grown hv⟩, nofun⟩, fun h => ?_⟩
    obtain ⟨hcompared, htwo⟩ := hgrown.2 (h.1 rfl)
    exact ⟨fun _ => hcompared, fun _ => htwo, fun hv' => absurd (hv.symm.trans hv') nofun, hcharged⟩
  | false =>
    have hshrunk := st.shrunk_fits_iff hf
    refine ⟨fun h => ⟨nofun, fun _ => hshrunk.1 (h.shrunk hv)⟩, fun h => ?_⟩
    have hnone {P : Prop} (hv' : v.success = true) : P := absurd (hv.symm.trans hv') nofun
    exact ⟨hnone, hnone, fun _ => hshrunk.2 (h.2 rfl), hcharged⟩

/-- A decision that fits leads to a number of executors in the word. -/
theorem State.Fits.contains_executors (h : st.Fits s v)
    (hupper : signed64.contains s.upper = true) :
    signed64.contains (st.advance s v).executors = true := by
  cases hv : v.success with
  | true =>
    have hscale := contains_signed64_iff.1 (contains_scale st.executors (st.growth s))
    have htwo := h.grown hv
    rw [executors_of_success s st hv]
    rw [contains_signed64_iff] at htwo hupper ⊢
    simp only [State.grown]
    rw [← State.growth]
    split <;> split <;> omega
  | false =>
    rw [executors_of_failure s st hv]
    rcases st.shrunk_cases s with ⟨hsame, hnext⟩ | ⟨-, hnext⟩
    · rw [hnext]
      exact h.shrunk hv hsame
    · rw [hnext]
      exact contains_scale _ _

end LoadProbe.Pass

namespace LoadProbe

open Pass Number

/-! ## The passes of a plan -/

section Passes

variable {p : Plan} {σ : Type} {pass : σ → Int → σ × Verdict × List Notice} {w : σ} {q : Made σ}

/-- Charging a pass of a plan never leaves the word of the budget. -/
theorem Plan.InWords.contains_charged (hw : p.InWords)
    (hq : q ∈ passes p.settings pass w (.initial p.settings.initial)) :
    unsigned32.contains (q.state.passIndex + 1) = true := by
  have hindex := State.lt_of_not_exhausted (mem_passes hq).1
  have hbudget : (p.settings.maxRefine : Int) ≤ unsigned32.hi :=
    (Range.contains_iff.1 hw.maxRefine).2
  have hlo : unsigned32.lo = 0 := by decide
  rw [Range.contains_iff]
  omega

/-- In the complete mode, with a factor of at most 1, no number of executors lies above a double
that the bound does not lie above. -/
theorem Plan.Sound.executors_le (hp : p.Sound) (hc : p.settings.compat = false)
    (hle : p.settings.shrink ≤ 1.0) {n : Nat} (hn : Rounds n n) (hlt : n < 2 ^ 63)
    (hupper : p.settings.upper ≤ n)
    (hq : q ∈ passes p.settings pass w (.initial p.settings.initial)) : q.state.executors ≤ n := by
  have hf := hp.factor_pos .shrink
  have hfirst : (State.initial p.settings.initial).executors ≤ n := hp.initial_mem.2.trans hupper
  refine (passes_invariant (I := (·.executors ≤ (n : Int))) hfirst fun q _ h => ?_).1 q hq
  cases hv : q.verdict.success with
  | true =>
    rw [State.executors_of_success _ _ hv]
    exact (State.grown_mem q.state hc).2.trans hupper
  | false =>
    rw [State.executors_of_failure _ _ hv]
    exact State.shrunk_le hf (scale_natCast_le hf hle hn hlt) h

/-- With a factor of at most 1 no pass of a plan has less than so many executors below zero. -/
theorem Plan.Sound.lt_executors (hp : p.Sound) (hw : p.InWords) (hle : p.settings.shrink ≤ 1.0)
    (hq : q ∈ passes p.settings pass w (.initial p.settings.initial)) :
    -2 ^ 32 < q.state.executors := by
  have hcharged := (Range.contains_iff.1 (hw.contains_charged hq)).2
  rw [passes_eq_map, List.mem_map] at hq
  obtain ⟨n, hn, rfl⟩ := hq
  have hshallow := hp.shallow hw hle (List.mem_range.1 hn).le
  unfold State.Shallow at hshallow
  rw [show unsigned32.hi = 2 ^ 32 - 1 by decide] at hcharged
  simp only [Made.of] at hcharged ⊢
  omega

end Passes

/-- Where the decisions upon the passes of a plan leave their words, when no pass without executors
succeeds: a charge never does, a success does at the two greatest numbers of executors, and a
failure at the least one with a factor of at least 1. So a factor of at most 1 never shrinks below
the word, and in the complete mode, with a bound up to the last double in the word, every decision
fits. -/
theorem Plan.Sound.fits_iff {p : Plan} (hp : p.Sound) (hw : p.InWords) {σ : Type}
    {pass : σ → Int → σ × Verdict × List Notice}
    (hempty : ∀ w k, k ≤ 0 → (pass w k).2.1 = .noRuns) (w : σ) :
    let s := p.settings
    ∀ q ∈ passes s pass w (.initial s.initial),
      unsigned32.contains (q.state.passIndex + 1) = true ∧
      (q.state.Fits s q.verdict ↔
        (q.verdict.success = true → q.state.executors < 2 ^ 63 - 2) ∧
        (q.verdict.success = false → ¬(q.state.executors = -2 ^ 63 ∧ 1.0 ≤ s.shrink))) ∧
      (q.state.Fits s q.verdict →
        signed64.contains (q.state.advance s q.verdict).executors = true) ∧
      (s.shrink ≤ 1.0 →
        -2 ^ 32 < q.state.executors ∧
        (q.verdict.success = false → q.state.Fits s q.verdict) ∧
        (s.compat = false → s.upper ≤ 2 ^ 63 - 1024 → q.state.Fits s q.verdict)) := by
  intro s q hq
  have hcharged := hw.contains_charged hq
  have hfits := State.fits_iff_of_charged (hp.factor_pos .shrink) hcharged fun hle =>
    (congrArg Verdict.success ((mem_passes hq).2.trans (hempty _ _ hle)) : q.verdict.success = false)
  refine ⟨hcharged, hfits, fun h => h.contains_executors hw.upper, fun hle => ?_⟩
  have hlow := hp.lt_executors hw hle hq
  have hfailure : ¬(q.state.executors = -2 ^ 63 ∧ 1.0 ≤ s.shrink) := by omega
  refine ⟨hlow, fun hv => hfits.2 ⟨fun hv' => ?_, fun _ => hfailure⟩, fun hc hupper => ?_⟩
  · rw [hv] at hv'
    cases hv'
  · have hhigh : q.state.executors ≤ (2 ^ 63 - 1024 : Nat) :=
      hp.executors_le hc hle rounds_word.2 (by decide) (hupper.trans (by decide)) hq
    exact hfits.2 ⟨fun _ => by omega, fun _ => hfailure⟩

/-- The fourth of the failed passes with factor 0.5 is one of -2 executors, and fits. -/
theorem Plan.Sound.fits_iff_halving :
    let s := (shrinkingPlan 0.5 5).settings
    let pass := pass Rehearsal.ScriptedRuns.launcher s 150.0
    let fourth := Made.of pass ((turn s pass)^[3] (failingAlways, .initial s.initial))
    fourth.state.executors = -2 ∧ fourth.verdict.success = false ∧
      fourth.state.Fits s fourth.verdict := by
  intro s pass fourth
  have hlength : (passes s pass failingAlways (.initial s.initial)).length = 5 :=
    length_passes_eq (by decide +kernel) (by decide +kernel)
  have hfourth : fourth ∈ passes s pass failingAlways (.initial s.initial) := by
    rw [passes_eq_map, hlength]
    exact List.mem_map_of_mem (List.mem_range.2 (by decide))
  have hfailed : fourth.verdict.success = false := by decide +kernel
  obtain ⟨-, -, -, hshrinks⟩ := Plan.Sound.fits_iff (p := shrinkingPlan 0.5 5) (by decide +kernel)
    (by decide +kernel) (fun _ _ => pass_of_nonpos) failingAlways fourth hfourth
  obtain ⟨-, hfits, -⟩ := hshrinks (by decide +kernel)
  exact ⟨by decide +kernel, hfailed, hfits hfailed⟩

/-- With factor 1.5 and a budget of 200 the failed passes come to the least number of executors after
109 decisions. The next one fails as well, and would shrink it by 1. -/
theorem shrinkingPlan_overflows :
    let plan := shrinkingPlan 1.5 200
    let pass := pass Rehearsal.ScriptedRuns.launcher plan.settings 150.0
    plan.Sound ∧ plan.InWords ∧
      ∃ q ∈ passes plan.settings pass failingAlways (.initial plan.settings.initial),
        q.verdict = .noRuns ∧ q.state.executors = -2 ^ 63 ∧ q.state.passIndex = 109 ∧
          (q.state.advance plan.settings q.verdict).executors = -2 ^ 63 - 1 ∧
          ¬q.state.Fits plan.settings q.verdict := by
  intro plan pass
  have hsound : plan.Sound := by decide +kernel
  have hfirst : 1 ≤ (passes plan.settings pass failingAlways
      (.initial plan.settings.initial)).length := by
    rw [passes_of_not_exhausted (by decide +kernel), List.length_cons]
    exact Nat.le_add_left 1 _
  -- The second pass has no executors, so all of the budget is spent on failures.
  have hlength : (passes plan.settings pass failingAlways
      (.initial plan.settings.initial)).length = 200 := by
    rw [← length_passes_turns hfirst, length_passes_of_idle (idlesAtZero_pass _ _ _)
      (hsound.factor_pos .shrink) (by decide +kernel)]
    decide +kernel
  obtain ⟨q, hq⟩ : ∃ q, q = Made.of pass ((turn plan.settings pass)^[109]
    (failingAlways, .initial plan.settings.initial)) := ⟨_, rfl⟩
  have hstate : q.state.executors = -2 ^ 63 ∧ q.state.passIndex = 109 ∧
      (q.state.advance plan.settings q.verdict).executors = -2 ^ 63 - 1 := by
    rw [hq]
    decide +kernel
  have hmade : q ∈ passes plan.settings pass failingAlways (.initial plan.settings.initial) := by
    rw [hq, passes_eq_map, hlength]
    exact List.mem_map_of_mem (List.mem_range.2 (by decide))
  have hv : q.verdict = .noRuns :=
    (mem_passes hmade).2.trans (pass_of_nonpos (hstate.1.trans_le (by decide)))
  refine ⟨hsound, by decide +kernel, q, hmade, hv, hstate.1, hstate.2.1, hstate.2.2, fun hfits => ?_⟩
  have hword := hfits.contains_executors (by decide +kernel)
  rw [hstate.2.2] at hword
  exact absurd hword (by decide)

end LoadProbe
