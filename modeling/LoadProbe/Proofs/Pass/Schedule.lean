import Mathlib.Logic.Encodable.Basic
import Mathlib.Order.WellFounded

/-!
# Schedules

Several actors act on one state, and a schedule says who of them makes each step, so that any
schedule is one order in which they may take their steps (`follow`). A schedule is fair when nobody
who could go on is passed over for ever (`Fair`). When no step raises a measure, and as long as the
end is not reached there is somebody whose step lowers it, every fair schedule reaches the end
(`Progress.eventually`): whatever the others do meanwhile, either lowers the measure, too, or
leaves that step as it was.
-/

namespace LoadProbe.Pass

section Follow

variable {S A : Type} (step : S → A → S) (c : S) (schedule : Nat → A)

/-- The state after so many steps, each made by the actor, or upon the input, that the schedule
names. -/
def follow : Nat → S
  | 0 => c
  | n + 1 => step (follow n) (schedule n)

/-- Again and again every actor makes a step, or there is nothing that it could do. -/
def Fair : Prop :=
  ∀ (a : A) (n : Nat), ∃ m, n ≤ m ∧
    (schedule m = a ∨ step (follow step c schedule m) a = follow step c schedule m)

variable {step c schedule}

/-- A schedule that names every actor again and again is fair. -/
theorem Fair.of_recurs (h : ∀ (a : A) (n : Nat), ∃ m, n ≤ m ∧ schedule m = a) :
    Fair step c schedule := by
  intro a n
  obtain ⟨m, hm, ha⟩ := h a n
  exact ⟨m, hm, .inl ha⟩

/-- Names everybody again and again. -/
def sweep (A : Type) [Encodable A] [Inhabited A] (n : Nat) : A :=
  (Encodable.decode n.unpair.1).getD default

theorem Fair.sweep [Encodable A] [Inhabited A] : Fair step c (sweep A) := by
  refine .of_recurs fun a n => ⟨Nat.pair (Encodable.encode a) n, Nat.right_le_pair _ _, ?_⟩
  rw [LoadProbe.Pass.sweep, Nat.unpair_pair, Encodable.encodek]
  rfl

/-- What every step keeps holds after any number of them. -/
theorem follow_invariant {I : S → Prop} (hc : I c) (hstep : ∀ x a, I x → I (step x a)) (n : Nat) :
    I (follow step c schedule n) := by
  induction n with
  | zero => exact hc
  | succ n ih => exact hstep _ _ ih

end Follow

section Progress

variable {S A M : Type} [Preorder M]

/-- A measure that leads to the end: `I` holds of all states that are reached, and `done` of those
at the end. -/
structure Progress (step : S → A → S) (I done : S → Prop) (measure : S → M) : Prop where
  keeps : ∀ x a, I x → I (step x a)
  lowers : ∀ x a, I x → step x a = x ∨ measure (step x a) < measure x
  helped : ∀ x, I x → ¬done x → ∃ a, measure (step x a) < measure x

variable {step : S → A → S} {I done : S → Prop} {measure : S → M} {c : S} {schedule : Nat → A}

/-- Later states are the same or lower. -/
theorem Progress.follow_eq_or_lt (h : Progress step I done measure) (hc : I c) {n m : Nat}
    (hle : n ≤ m) : follow step c schedule m = follow step c schedule n ∨
      measure (follow step c schedule m) < measure (follow step c schedule n) := by
  induction hle with
  | refl => exact .inl rfl
  | step _ ih =>
    rename_i m _
    have hm : I (follow step c schedule m) := follow_invariant hc h.keeps m
    rcases h.lowers _ (schedule m) hm with hsame | hlower
    · rw [follow, hsame]
      exact ih
    · right
      rcases ih with heq | hlt
      · rw [← heq]
        exact hlower
      · exact hlower.trans hlt

/-- Every fair schedule reaches the end. -/
theorem Progress.eventually [WellFoundedLT M] (h : Progress step I done measure) (hc : I c)
    (hfair : Fair step c schedule) : ∃ n, done (follow step c schedule n) := by
  suffices hfrom : ∀ (x : M) (n : Nat), measure (follow step c schedule n) = x →
      ∃ k, done (follow step c schedule k) from hfrom _ 0 rfl
  intro x
  induction x using WellFoundedLT.induction with
  | ind x ih =>
    rintro n rfl
    by_cases hdone : done (follow step c schedule n)
    · exact ⟨n, hdone⟩
    -- Somebody can lower the measure. When its turn comes, the state is still the same, or the
    -- measure is lower already.
    obtain ⟨a, ha⟩ := h.helped _ (follow_invariant hc h.keeps n) hdone
    obtain ⟨m, hm, hturn⟩ := hfair a n
    rcases h.follow_eq_or_lt hc hm with hsame | hlower
    · rcases hturn with hnamed | hidle
      · have hnext : follow step c schedule (m + 1) = step (follow step c schedule n) a := by
          rw [follow, hnamed, hsame]
        exact ih _ (hnext ▸ ha) (m + 1) rfl
      · rw [hsame] at hidle
        rw [hidle] at ha
        exact absurd ha (lt_irrefl _)
    · exact ih _ hlower m rfl

end Progress

end LoadProbe.Pass
