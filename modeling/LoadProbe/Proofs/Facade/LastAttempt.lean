import LoadProbe.Proofs.Facade.Retry
import Mathlib.Algebra.GroupWithZero.Nat

/-!
# The last attempt of a command

Which attempt of a command is its last one depends on the results alone (`Policy.IsLast`): the first
one that succeeds, that fails in a way which is not retried, or that uses up the attempts asked for.
Up to it the command goes on (`Policy.again_of_not_last`), and there it ends with the result of this
attempt (`Policy.run_until_last`). What later attempts would have given is never looked at.
-/

namespace LoadProbe.Facade.Policy

variable {α : Type} {asked : Option UInt32} {on : RetryOn} {results : Nat → Except Failure α}
variable {p : Policy} {attempt : UInt32} {made : Nat} {e : Failure}

/-- The policy that allows as many attempts as were asked for, or any number of them. -/
def allowing : Option UInt32 → Policy
  | some n => bounded n
  | none => forever

/-- The attempt after `made` others is the last one: it succeeds, or the server answered and only
failures of the transport are retried, or no further attempt was asked for. One attempt is made in
any case. -/
def IsLast (asked : Option UInt32) (on : RetryOn) (results : Nat → Except Failure α)
    (made : Nat) : Prop :=
  (∃ v, results made = .ok v) ∨
  (on = .transport ∧ ∃ e, results made = .error e ∧ e ≠ .transport) ∨
  ∃ n, asked = some n ∧ made + 1 = max n.toNat 1

/-- A failure of the kind that is retried is followed by another attempt when the policy allows
one, as long as the count does not run over. -/
theorem after_of_retried (hcovers : on.covers e = true)
    (hallowed : p.exhausted attempt = false) (hword : attempt.toNat + 1 < 2 ^ 32) :
    p.after on attempt e = .again (attempt + 1) := by
  have hne : attempt ≠ UInt32.ofNat 4294967295 := by
    rintro rfl
    simp only [UInt32.toNat_ofNat'] at hword
    omega
  simp only [after, hcovers, hallowed, Bool.not_true, Bool.or_self, Bool.false_eq_true, if_false,
    if_neg hne]

theorem after_of_not_covers (hcovers : on.covers e = false) :
    p.after on attempt e = .giveUp := by
  simp only [after, hcovers, Bool.not_false, Bool.true_or, if_true]

theorem covers_eq_false_iff : on.covers e = false ↔ on = .transport ∧ e ≠ .transport := by
  cases on <;> cases e <;> simp [RetryOn.covers, Failure.isTransport]

theorem toNat_max (m n : UInt32) : (max m n).toNat = max m.toNat n.toNat := by
  show (if m ≤ n then n else m).toNat = _
  by_cases hle : m ≤ n
  · rw [if_pos hle, Nat.max_eq_right (UInt32.le_iff_toNat_le.1 hle)]
  · rw [if_neg hle]
    rw [UInt32.le_iff_toNat_le] at hle
    exact (Nat.max_eq_left (Nat.le_of_not_le hle)).symm

/-- The attempts asked for are used up. -/
theorem exhausted_allowing :
    (allowing asked).exhausted attempt = true ↔
      ∃ n, asked = some n ∧ max n.toNat 1 ≤ attempt.toNat := by
  cases asked with
  | none => simp [allowing, exhausted, forever]
  | some n => simp [allowing, exhausted, bounded, UInt32.le_iff_toNat_le, toNat_max]

/-- Which failures are the last attempt. -/
theorem isLast_error_iff (hr : results made = .error e) :
    IsLast asked on results made ↔
      on.covers e = false ∨ ∃ n, asked = some n ∧ made + 1 = max n.toNat 1 := by
  rw [covers_eq_false_iff, IsLast, hr]
  simp

/-- The last attempt is followed by no other one. -/
theorem giveUp_of_last (hattempt : attempt.toNat = made + 1) (hlast : IsLast asked on results made)
    (hr : results made = .error e) : (allowing asked).after on attempt e = .giveUp := by
  rcases (isLast_error_iff hr).1 hlast with hcovers | ⟨n, hn, hmade⟩
  · exact after_of_not_covers hcovers
  · have hexhausted : (allowing asked).exhausted attempt = true :=
      exhausted_allowing.2 ⟨n, hn, by omega⟩
    simp only [after, hexhausted, Bool.or_true, if_true]

/-- An attempt that is not the last one, nor those before it, failed and is followed by another
one. -/
theorem again_of_not_last (hattempt : attempt.toNat = made + 1)
    (hgo : ∀ k ≤ made, ¬IsLast asked on results k) (hword : made + 2 < 2 ^ 32) :
    ∃ e next, results made = .error e ∧ (allowing asked).after on attempt e = .again next := by
  have hnot := hgo made (Nat.le_refl made)
  cases hr : results made with
  | ok v => exact absurd (.inl ⟨v, hr⟩) hnot
  | error e =>
    rw [isLast_error_iff hr, not_or, Bool.not_eq_false] at hnot
    obtain ⟨hcovers, -⟩ := hnot
    -- a limit at or below this attempt would have made an earlier one the last
    have hexhausted : (allowing asked).exhausted attempt = false := by
      rw [← Bool.not_eq_true, exhausted_allowing]
      rintro ⟨n, hn, hle⟩
      exact hgo (max n.toNat 1 - 1) (by omega) (.inr (.inr ⟨n, hn, by omega⟩))
    exact ⟨e, _, rfl, after_of_retried hcovers hexhausted (by omega)⟩

/-- As long as no attempt was the last one, the command goes on with the next. -/
theorem run_of_not_last (hgo : ∀ k < made, ¬IsLast asked on results k)
    (hword : made + 1 < 2 ^ 32) :
    ∃ attempt : UInt32, attempt.toNat = made + 1 ∧ ∀ fuel,
      (allowing asked).run on results (made + fuel) =
        (allowing asked).runFrom on results fuel made attempt := by
  induction made with
  | zero => exact ⟨1, rfl, fun fuel => by rw [Nat.zero_add]; rfl⟩
  | succ made ih =>
    obtain ⟨attempt, hattempt, hrun⟩ := ih (fun k hk => hgo k (by omega)) (by omega)
    obtain ⟨e, next, hr, hafter⟩ :=
      again_of_not_last hattempt (fun k hk => hgo k (by omega)) (by omega)
    refine ⟨next, by rw [toNat_of_again hafter, hattempt], fun fuel => ?_⟩
    rw [Nat.add_right_comm, Nat.add_assoc, hrun (fuel + 1), runFrom]
    simp only [hr, hafter]

/-- The last attempt ends the command with its result. -/
theorem runFrom_of_last (hattempt : attempt.toNat = made + 1)
    (hlast : IsLast asked on results made) (fuel : Nat) :
    (allowing asked).runFrom on results (fuel + 1) made attempt =
      some (.result (made + 1) (results made)) := by
  rw [runFrom]
  cases hr : results made with
  | ok v => rfl
  | error e => simp only [giveUp_of_last hattempt hlast hr]

/-- Exactly the attempts up to the last one are made. -/
theorem run_eq_of_last (hgo : ∀ k < made, ¬IsLast asked on results k)
    (hlast : IsLast asked on results made) (hword : made + 1 < 2 ^ 32) (fuel : Nat) :
    (allowing asked).run on results fuel =
      if fuel ≤ made then none else some (.result (made + 1) (results made)) := by
  split
  · rename_i hle
    obtain ⟨attempt, -, hrun⟩ := run_of_not_last (fun k hk => hgo k (by omega))
      (show fuel + 1 < 2 ^ 32 by omega)
    exact hrun 0
  · rename_i hlt
    obtain ⟨attempt, hattempt, hrun⟩ := run_of_not_last hgo hword
    obtain ⟨more, rfl⟩ := Nat.exists_eq_add_of_lt (Nat.lt_of_not_le hlt)
    rw [Nat.add_assoc, hrun (more + 1), runFrom_of_last hattempt hlast more]

/-- Whether an attempt is the last one depends on its own result alone. -/
theorem isLast_congr {others : Nat → Except Failure α} (h : others made = results made) :
    IsLast asked on others made ↔ IsLast asked on results made := by
  unfold IsLast
  rw [h]

/-- Under a policy that was asked for, with either kind of retries, a command makes exactly the
attempts up to the first last one and ends with the result of this attempt, whatever the results
of later ones would have been; as long as there is no last attempt, it makes another one. Attempts
are looked at as far as they can be counted in a word of 32 bits. -/
theorem run_until_last (asked : Option UInt32) (on : RetryOn) (results : Nat → Except Failure α) :
    (∀ made, made + 1 < 2 ^ 32 → IsLast asked on results made →
      (∀ before < made, ¬IsLast asked on results before) →
      (∀ fuel, (allowing asked).run on results fuel =
        if fuel ≤ made then none else some (.result (made + 1) (results made))) ∧
      ∀ others : Nat → Except Failure α, (∀ k ≤ made, others k = results k) → ∀ fuel,
        (allowing asked).run on others fuel = (allowing asked).run on results fuel) ∧
    ((∀ made, ¬IsLast asked on results made) → ∀ calls, calls + 1 < 2 ^ 32 →
      (allowing asked).run on results calls = none) := by
  refine ⟨fun made hword hlast hgo => ?_, fun hgo calls hword => ?_⟩
  · have hrun := fun fuel => run_eq_of_last hgo hlast hword fuel
    refine ⟨hrun, fun others hothers fuel => ?_⟩
    have hlast' : IsLast asked on others made :=
      (isLast_congr (hothers made (Nat.le_refl made))).2 hlast
    have hgo' : ∀ before < made, ¬IsLast asked on others before := fun before hlt h =>
      hgo before hlt ((isLast_congr (hothers before (Nat.le_of_lt hlt))).1 h)
    rw [hrun fuel, run_eq_of_last hgo' hlast' hword fuel, hothers made (Nat.le_refl made)]
  · obtain ⟨attempt, -, hrun⟩ := run_of_not_last (fun k _ => hgo k) hword
    exact hrun 0

/-- Two failures of the transport and a bad gateway after them: the third attempt is the last one
without a limit, and the first one when no attempt at all was asked for. Failures of the transport
alone have no last attempt. -/
theorem run_until_last_gateway :
    let results : Nat → Except Failure Unit :=
      fun k => .error (if k < 2 then .transport else .api 502 "bad gateway")
    (IsLast none .transport results 2 ∧ (∀ before < 2, ¬IsLast none .transport results before) ∧
      (allowing none).run .transport results 9 =
        some (.result 3 (.error (.api 502 "bad gateway")))) ∧
    (IsLast (some 0) .anyFailure results 0 ∧
      (allowing (some 0)).run .anyFailure results 9 = some (.result 1 (.error .transport))) ∧
    (∀ made, ¬IsLast none .transport (fun _ => .error .transport : Nat → Except Failure Unit) made) ∧
      (allowing none).run .transport (fun _ => .error .transport : Nat → Except Failure Unit)
        4000000000 = none := by
  intro results
  have hbroken : ∀ {results : Nat → Except Failure Unit} {k},
      results k = .error .transport → ¬IsLast none .transport results k := by
    intro results k hr
    rw [isLast_error_iff hr]
    rintro (hcovers | ⟨n, hn, -⟩)
    · cases hcovers
    · cases hn
  have hthird : IsLast none .transport results 2 := .inr (.inl ⟨rfl, _, rfl, nofun⟩)
  have hbefore : ∀ before < 2, ¬IsLast none .transport results before := fun before hlt =>
    hbroken (by simp only [results, if_pos hlt])
  have hfirst : IsLast (some 0) .anyFailure results 0 := .inr (.inr ⟨0, rfl, rfl⟩)
  refine ⟨⟨hthird, hbefore, ?_⟩, ⟨hfirst, ?_⟩, fun _ => hbroken rfl, ?_⟩
  · exact ((run_until_last none .transport results).1 2 (by omega) hthird hbefore).1 9
  · exact ((run_until_last (some 0) .anyFailure results).1 0 (by omega) hfirst nofun).1 9
  · exact (run_until_last none .transport _).2 (fun _ => hbroken rfl) 4000000000 (by omega)

end LoadProbe.Facade.Policy
