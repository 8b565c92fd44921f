import LoadProbe.Proofs.Report
import LoadProbe.Rehearsal.ScriptedRuns

/-!
# The trials of a baseline

The trials are runs one after the other (`Launcher.after`), up to the limit or to the first one that
does not succeed. So how many of them lead in with a success decides both how many runs are launched
and how many times the mean is taken over (`Baseline.measure_of_streak`).
-/

namespace LoadProbe

open Pass Number

/-! ## Runs one after the other -/

namespace Pass.Launcher

variable {σ : Type}

/-- The world after so many runs, each started when the one before it is over. -/
def after (l : Launcher σ) (w : σ) (runs : Nat) : σ :=
  (fun v => (l.single v).1)^[runs] w

/-- How the run ends that is started after so many others. -/
def fate (l : Launcher σ) (w : σ) (runs : Nat) : Fate :=
  (l.single (l.after w runs)).2.2

theorem after_succ (l : Launcher σ) (w : σ) (runs : Nat) :
    l.after w (runs + 1) = l.after (l.single w).1 runs := rfl

theorem fate_succ (l : Launcher σ) (w : σ) (runs : Nat) :
    l.fate w (runs + 1) = l.fate (l.single w).1 runs := rfl

/-- A launcher that notes what it launches launches the same. -/
theorem after_logged (l : Launcher σ) (w : σ) (noted : List Launch) (runs : Nat) :
    l.logged.after (w, noted) runs =
      (l.after w runs, noted ++ (List.range runs).map fun k => .alone (l.fate w k)) := by
  induction runs generalizing w noted with
  | zero => exact congrArg (Prod.mk w) (List.append_nil noted).symm
  | succ runs ih =>
    have hfirst : (l.logged.single (w, noted)).1 =
        ((l.single w).1, noted ++ [.alone (l.fate w 0)]) := rfl
    rw [after_succ, hfirst, ih, after_succ, List.range_succ_eq_map, List.map_cons, List.map_map,
      List.append_assoc]
    rfl

theorem fate_logged (l : Launcher σ) (w : σ) (noted : List Launch) (runs : Nat) :
    l.logged.fate (w, noted) runs = l.fate w runs := by
  rw [fate, after_logged]
  rfl

end Pass.Launcher

namespace Baseline

variable {σ : Type} {l : Launcher σ} {w : σ} {limit p : Nat} {o : Nat → Outcome}

/-! ## Leading successes -/

/-- The time of the first `n` runs. -/
def totalTime (o : Nat → Outcome) (n : Nat) : Nat :=
  ((List.range n).map fun k => (o k).millis.toNat).sum

/-- Runs one after the other end as these outcomes: the first `p` succeed, and the next one does
not. Where `p` reaches the limit it makes no difference how the next one would end. -/
structure Streak (l : Launcher σ) (w : σ) (limit p : Nat) (o : Nat → Outcome) : Prop where
  fate : ∀ k < min limit (p + 1), l.fate w k = .outcome (o k)
  succeeds : ∀ k < p, (o k).status.isSuccess = true
  fails : p < limit → (o p).status.isSuccess = false

namespace Streak

/-- The runs after the first one. -/
theorem tail (h : Streak l w (limit + 1) (p + 1) o) :
    Streak l (l.single w).1 limit p fun k => o (k + 1) where
  fate k hk := by
    rw [← Launcher.fate_succ]
    exact h.fate (k + 1) (by omega)
  succeeds k hk := h.succeeds (k + 1) (by omega)
  fails hp := h.fails (by omega)

theorem logged (h : Streak l w limit p o) : Streak l.logged (w, []) limit p o where
  fate k hk := (l.fate_logged w [] k).trans (h.fate k hk)
  succeeds := h.succeeds
  fails := h.fails

end Streak

/-- The trials that are left: they end with the first one that fails, and the times of those before
it are added to the times so far. With those made before they come to the limit, so the mean is
taken over as many trials as have succeeded, also when it is taken over the limit. -/
theorem trials_of_streak {remaining : Nat} (h : Streak l w remaining p o) (runs : Nat)
    (total : UInt64) (hlimit : limit ≠ 0) (hruns : runs + remaining = limit) :
    (trials l limit remaining runs total w).1 = l.after w (min remaining (p + 1)) ∧
    (trials l limit remaining runs total w).2.1 =
      soFar (total + ((List.range (min remaining p)).map fun k => (o k).millis).sum)
        (runs + min remaining p) := by
  induction remaining generalizing w p o runs total with
  | zero =>
    obtain rfl : runs = limit := hruns
    simp [trials, Launcher.after, soFar, hlimit]
  | succ remaining ih =>
    have hfirst : (l.single w).2.2 = .outcome (o 0) := h.fate 0 (by omega)
    cases p with
    | zero =>
      rw [trials_of_failure hfirst (h.fails (Nat.succ_pos _))]
      simp [Launcher.after]
    | succ p =>
      have hs : (o 0).status.isSuccess = true := h.succeeds 0 (Nat.succ_pos _)
      obtain ⟨hworld, hresult⟩ := ih h.tail (runs + 1) (total + (o 0).millis) (by omega)
      rw [trials_of_success hfirst hs, Nat.succ_min_succ, Nat.succ_min_succ,
        List.range_succ_eq_map, List.map_cons, List.sum_cons, List.map_map]
      refine ⟨hworld, hresult.trans ?_⟩
      rw [add_assoc, Nat.add_right_comm, Nat.add_assoc]
      rfl

/-- The times are added up in a word, which is enough as long as their sum fits. -/
theorem toNat_sum_millis {n : Nat} (hsum : totalTime o n < 2 ^ 64) :
    ((List.range n).map fun k => (o k).millis).sum.toNat = totalTime o n := by
  rw [Terms.toNat_sum, List.map_map]
  exact Nat.mod_eq_of_lt hsum

theorem soFar_eq_failed_iff {total : UInt64} {runs : Nat} :
    soFar total runs = .failed ↔ runs = 0 := by
  unfold soFar
  split <;> simp_all

/-- The measurement as a whole. -/
theorem measure_of_streak (h : Streak l w limit p o) :
    (measure l limit w).1 = l.after w (min limit (p + 1)) ∧
    (measure l limit w).2.1 =
      soFar ((List.range (min limit p)).map fun k => (o k).millis).sum (min limit p) := by
  unfold measure
  split
  · rename_i hlimit
    subst hlimit
    simp [Launcher.after, soFar]
  · rename_i hlimit
    obtain ⟨hworld, hresult⟩ := trials_of_streak h 0 0 hlimit (Nat.zero_add limit)
    rw [zero_add, Nat.zero_add] at hresult
    exact ⟨hworld, hresult⟩

/-- What a measurement with a limit launches and finds, when the first `p` runs succeed and the next
one does not. It launches the runs up to this one or to the limit, one after the other and no other
ones. It fails when it makes no run or the first one does not succeed, and otherwise finds the mean
time of the runs that succeeded. Any other runs that begin with the same successes and go on with a
failure, however it looks and whatever would come after it, have the same result; the launcher that
notes its launches is one of those that have them. -/
theorem measure_of_leading (l : Launcher σ) (w : σ) (limit p : Nat) (o : Nat → Outcome)
    (h : Streak l w limit p o) (hsum : totalTime o (min limit p) < 2 ^ 64) :
    (measure l limit w).1 = l.after w (min limit (p + 1)) ∧
    (measure l.logged limit (w, [])).1.2 =
      (List.range (min limit (p + 1))).map (fun k => .alone (.outcome (o k))) ∧
    ((measure l limit w).2.1 = .failed ↔ limit = 0 ∨ p = 0) ∧
    (limit ≠ 0 → p ≠ 0 → (measure l limit w).2.1 =
      .mean (Float.ofNat (totalTime o (min limit p)) / Float.ofNat (min limit p))) ∧
    ∀ {τ : Type} (l' : Launcher τ) (w' : τ) (o' : Nat → Outcome), Streak l' w' limit p o' →
      (∀ k < p, o' k = o k) → (measure l' limit w').2.1 = (measure l limit w).2.1 := by
  obtain ⟨hworld, hresult⟩ := measure_of_streak h
  refine ⟨hworld, ?_, ?_, fun hlimit hp => ?_, fun l' w' o' h' ho => ?_⟩
  · rw [(measure_of_streak h.logged).1, Launcher.after_logged, List.nil_append]
    refine List.map_congr_left fun k hk => ?_
    rw [h.fate k (List.mem_range.1 hk)]
  · rw [hresult, soFar_eq_failed_iff]
    omega
  · rw [hresult, soFar, if_neg (by omega), mean, toFloat_eq, toNat_sum_millis hsum]
  · have htimes : ((List.range (min limit p)).map fun k => (o' k).millis) =
        (List.range (min limit p)).map fun k => (o k).millis := by
      refine List.map_congr_left fun k hk => ?_
      rw [ho k (Nat.lt_of_lt_of_le (List.mem_range.1 hk) (Nat.min_le_right _ _))]
    rw [hresult, (measure_of_streak h').2, htimes]

/-- Runs of which the third one is canceled. -/
def canceledThird : Timeline Rehearsal.ScriptedRuns Rehearsal.ScriptedRuns.Stage :=
  .start ⟨[.outcome ⟨.success, 100⟩, .outcome ⟨.success, 120⟩, .outcome ⟨.canceled, 5000⟩],
    .outcome ⟨.success, 100⟩, false, .none⟩

/-- Of five trials three are launched, and the baseline is the mean time of the first two. -/
theorem measure_of_leading_canceledThird :
    let launcher := Rehearsal.ScriptedRuns.launcher
    let o : Nat → Outcome := fun k =>
      [(⟨.success, 100⟩ : Outcome), ⟨.success, 120⟩].getD k ⟨.canceled, 5000⟩
    (Streak launcher canceledThird 5 2 o ∧ totalTime o (min 5 2) < 2 ^ 64) ∧
    (measure launcher.logged 5 (canceledThird, [])).1.2 =
      [.alone (.outcome ⟨.success, 100⟩), .alone (.outcome ⟨.success, 120⟩),
        .alone (.outcome ⟨.canceled, 5000⟩)] ∧
    (measure launcher 5 canceledThird).2.1 = .mean (Float.ofNat 220 / Float.ofNat 2) := by
  intro launcher o
  have hstreak : Streak launcher canceledThird 5 2 o := by
    refine ⟨fun k hk => ?_, fun k hk => ?_, fun _ => rfl⟩
    · have hk3 : k < 3 := hk
      interval_cases k <;> rfl
    · interval_cases k <;> rfl
  have hsum : totalTime o (min 5 2) < 2 ^ 64 := by decide
  obtain ⟨-, hlaunched, -, hmean, -⟩ :=
    measure_of_leading launcher canceledThird 5 2 o hstreak hsum
  exact ⟨⟨hstreak, hsum⟩, hlaunched, hmean (by decide) (by decide)⟩

end Baseline

end LoadProbe
