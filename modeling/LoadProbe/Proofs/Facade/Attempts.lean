import LoadProbe.Proofs.Facade.LastAttempt
import Mathlib.Data.List.TakeWhile
import Mathlib.Data.Nat.Find

/-!
# How many attempts a command takes

`Policy.Takes` is the number of attempts with which a command comes to its end, whatever this end
is. There is exactly one (`Policy.exists_takes`, `Policy.Takes.unique`). Without a limit it is
given by the failures in front of the first success (`Policy.last_after_retried`): one attempt for
each failure up to the first one that is not retried, and the last attempt.
-/

namespace LoadProbe.Facade.Policy

variable {α : Type} {p : Policy} {results : Nat → Except Failure α} {made calls fewer : Nat}
variable {attempt : UInt32} {e : Failure}

/-- The command takes exactly so many attempts: with them its run is over, and with fewer it is
not. -/
def Takes (p : Policy) (results : Nat → Except Failure α) (calls : Nat) : Prop :=
  p.run .transport results calls ≠ none ∧ ∀ fewer < calls, p.run .transport results fewer = none

theorem Takes.unique {calls' : Nat} (h : p.Takes results calls) (h' : p.Takes results calls') :
    calls = calls' := by
  rcases Nat.lt_trichotomy calls calls' with hlt | heq | hlt
  · exact absurd (h'.2 calls hlt) h.1
  · exact heq
  · exact absurd (h.2 calls' hlt) h'.1

/-- The attempts made so far were not enough. -/
theorem Reaches.run_eq_none (h : p.Reaches results made attempt) (hle : fewer ≤ made) :
    p.run .transport results fewer = none := by
  cases hrun : p.run .transport results fewer with
  | none => rfl
  | some ending =>
    have hmore : p.run .transport results (fewer + (made - fewer)) = _ := runFrom_add hrun _
    have hnone : p.run .transport results (made + 0) = none := h 0
    rw [Nat.add_sub_cancel' hle, ← Nat.add_zero made, hnone] at hmore
    cases hmore

/-- A command that is about to make an attempt takes more than those made. -/
theorem Takes.lt_of_reaches (h : p.Takes results calls) (hreach : p.Reaches results made attempt) :
    made < calls :=
  Nat.lt_of_not_le fun hle => h.1 (hreach.run_eq_none hle)

/-- The attempt that is not followed by another one is the last. -/
theorem Reaches.takes (h : p.Reaches results made attempt)
    (hlast : ∀ e, results made = .error e → ∀ next, p.after .transport attempt e ≠ .again next) :
    p.Takes results (made + 1) := by
  refine ⟨?_, fun fewer hlt => h.run_eq_none (Nat.le_of_lt_succ hlt)⟩
  rw [h 1, runFrom]
  cases hr : results made with
  | ok v => exact Option.some_ne_none _
  | error e =>
    cases hafter : p.after .transport attempt e with
    | giveUp | overflow => simp [hafter]
    | again next => exact absurd hafter (hlast e hr next)

/-- The attempts run out with the numbers of their word. -/
theorem runFrom_ne_none (p : Policy) (results : Nat → Except Failure α) (fuel made : Nat)
    (attempt : UInt32) (h : 2 ^ 32 ≤ fuel + attempt.toNat) :
    p.runFrom .transport results fuel made attempt ≠ none := by
  induction fuel generalizing made attempt with
  | zero =>
    have := attempt.toNat_lt
    omega
  | succ fuel ih =>
    rw [runFrom]
    cases hr : results made with
    | ok v => exact Option.some_ne_none _
    | error e =>
      cases hafter : p.after .transport attempt e with
      | giveUp | overflow => simp [hafter]
      | again next =>
        have hnext := toNat_of_again hafter
        simpa only [hafter] using ih (made + 1) next (by omega)

/-- Every command takes some number of attempts. -/
theorem exists_takes (p : Policy) (results : Nat → Except Failure α) :
    ∃ calls, p.Takes results calls := by
  classical
  have hsome : ∃ fuel, p.run .transport results fuel ≠ none :=
    ⟨2 ^ 32, p.runFrom_ne_none results _ 0 1 (by omega)⟩
  refine ⟨Nat.find hsome, Nat.find_spec hsome, fun fewer hlt => ?_⟩
  exact not_not.1 (Nat.find_min hsome hlt)

/-! ## Without a limit -/

/-- The failures in front of a success, as far as they are retried, are followed by the last
attempt: the first failure that is not retried, or, when all of them are, the success. -/
theorem last_after_retried (on : RetryOn) {failures : List Failure} {v : α}
    (hfail : ∀ i (h : i < failures.length), results i = .error failures[i])
    (hok : results failures.length = .ok v) :
    let retried := (failures.takeWhile on.covers).length
    (∀ k < retried, ¬IsLast none on results k) ∧ IsLast none on results retried := by
  intro retried
  have hle : (failures.findIdx fun e => !on.covers e) ≤ failures.length := List.findIdx_le_length
  have hretried : retried = failures.findIdx fun e => !on.covers e := by
    simp only [retried, List.takeWhile_eq_take_findIdx_not, List.length_take]
    exact Nat.min_eq_left hle
  rw [hretried]
  constructor
  · intro k hk
    have hcovers : (!on.covers failures[k]) = false := List.not_of_lt_findIdx hk
    rw [isLast_error_iff (hfail k (Nat.lt_of_lt_of_le hk hle))]
    rintro (hnot | ⟨n, hn, -⟩)
    · rw [hnot] at hcovers
      cases hcovers
    · cases hn
  · rcases Nat.lt_or_eq_of_le hle with hlt | heq
    · have hcovers := List.findIdx_getElem (w := hlt)
      exact (isLast_error_iff (hfail _ hlt)).2 (.inl (by simpa using hcovers))
    · rw [heq]
      exact .inl ⟨v, hok⟩

/-- The whole command: with retries for failures of the transport it takes one attempt for each of
them up to the first other failure, and the last attempt; with retries for every failure it ends
with the success, whatever the failures were. -/
theorem forever_takes {failures : List Failure} {v : α}
    (hfail : ∀ i (h : i < failures.length), results i = .error failures[i])
    (hok : results failures.length = .ok v) (hword : failures.length + 1 < 2 ^ 32) :
    forever.Takes results ((failures.takeWhile Failure.isTransport).length + 1) ∧
      forever.run .anyFailure results (failures.length + 1) =
        some (.result (failures.length + 1) (.ok v)) := by
  have hrun : ∀ (on : RetryOn) (fuel : Nat),
      let retried := (failures.takeWhile on.covers).length
      forever.run on results fuel =
        if fuel ≤ retried then none else some (.result (retried + 1) (results retried)) := by
    intro on fuel retried
    obtain ⟨hgo, hlast⟩ := last_after_retried on hfail hok
    have hle : retried ≤ failures.length := (List.takeWhile_prefix _).length_le
    exact run_eq_of_last hgo hlast (by omega) fuel
  refine ⟨⟨?_, fun fewer hlt => ?_⟩, ?_⟩
  · have hended := (hrun .transport _).trans (if_neg (Nat.not_le_of_lt (Nat.lt_succ_self _)))
    exact hended.trans_ne (Option.some_ne_none _)
  · exact (hrun .transport fewer).trans (if_pos (Nat.le_of_lt_succ hlt))
  · have hall : failures.takeWhile RetryOn.anyFailure.covers = failures :=
      List.takeWhile_eq_self_iff.2 fun _ _ => rfl
    refine (hrun .anyFailure _).trans ?_
    rw [hall, if_neg (Nat.not_le_of_lt (Nat.lt_succ_self _)), hok]

end LoadProbe.Facade.Policy
