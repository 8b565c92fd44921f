import LoadProbe.Facade.Retry

/-!
# How a command ends under a policy

A run of a player makes the attempts of a command one at a time. `Policy.Reaches` says how far the
command has come after some attempts that failed, and `Policy.Ends` with which result it ended: the
one that `Policy.run` finds along the same results. It has one ending at most
(`Policy.Ends.unique`).
-/

namespace LoadProbe.Facade.Policy

variable {α : Type} {p : Policy} {results : Nat → Except Failure α} {made attempts : Nat}
variable {attempt next : UInt32} {e : Failure} {r : Except Failure α}

/-- Attempts are counted without running over. -/
theorem toNat_of_again {on : RetryOn} (h : p.after on attempt e = .again next) :
    next.toNat = attempt.toNat + 1 := by
  unfold after at h
  split at h
  · cases h
  · split at h
    · cases h
    · rename_i hlast
      obtain rfl := AfterFailure.again.inj h
      rw [← UInt32.toNat_inj] at hlast
      have hlt := attempt.toNat_lt
      rw [UInt32.toNat_add]
      simp only [UInt32.toNat_ofNat', UInt32.reduceToNat] at hlast ⊢
      omega

/-- Only a failure of the transport is followed by another attempt. -/
theorem isTransport_of_again (h : p.after .transport attempt e = .again next) :
    e.isTransport = true := by
  cases htransport : e.isTransport with
  | true => rfl
  | false => simp [after, RetryOn.covers, htransport] at h

/-- After so many attempts that failed the command is about to make attempt number `attempt`. -/
def Reaches (p : Policy) (results : Nat → Except Failure α) (made : Nat)
    (attempt : UInt32) : Prop :=
  ∀ fuel, p.run .transport results (made + fuel) = p.runFrom .transport results fuel made attempt

/-- The command ends with this result after so many attempts. -/
def Ends (p : Policy) (results : Nat → Except Failure α) (attempts : Nat)
    (r : Except Failure α) : Prop :=
  ∃ fuel, p.run .transport results fuel = some (.result attempts r)

namespace Reaches

/-- The first attempt is number 1. -/
theorem first (p : Policy) (results : Nat → Except Failure α) : p.Reaches results 0 1 := by
  intro fuel
  rw [Nat.zero_add]
  rfl

/-- A failure that is followed by another attempt. -/
theorem again (h : p.Reaches results made attempt) (hr : results made = .error e)
    (hafter : p.after .transport attempt e = .again next) :
    p.Reaches results (made + 1) next := by
  intro fuel
  rw [Nat.add_assoc, Nat.add_comm 1 fuel, h (fuel + 1), runFrom]
  simp only [hr, hafter]

/-- A failure that is the result. -/
theorem ends_of_giveUp (h : p.Reaches results made attempt) (hr : results made = .error e)
    (hafter : p.after .transport attempt e = .giveUp) :
    p.Ends results (made + 1) (.error e) := by
  refine ⟨made + 1, (h 1).trans ?_⟩
  rw [runFrom]
  simp only [hr, hafter]

/-- An attempt that succeeds. -/
theorem ends_of_ok {v : α} (h : p.Reaches results made attempt) (hr : results made = .ok v) :
    p.Ends results (made + 1) (.ok v) := by
  refine ⟨made + 1, (h 1).trans ?_⟩
  rw [runFrom]
  simp only [hr]

/-- No attempt comes after a first one that succeeds. -/
theorem eq_zero {v : α} (h : p.Reaches results made attempt) (hr : results 0 = .ok v) :
    made = 0 := by
  cases made with
  | zero => rfl
  | succ made =>
    have hrun := h 0
    rw [run, Nat.add_zero, runFrom, runFrom] at hrun
    simp only [hr, reduceCtorEq] at hrun

end Reaches

/-- More fuel changes no ending. -/
theorem runFrom_add {fuel : Nat} {ending : Ending α}
    (h : p.runFrom .transport results fuel made attempt = some ending) (more : Nat) :
    p.runFrom .transport results (fuel + more) made attempt = some ending := by
  induction fuel generalizing made attempt with
  | zero => cases h
  | succ fuel ih =>
    rw [Nat.add_right_comm, runFrom]
    rw [runFrom] at h
    cases hr : results made with
    | ok v => simpa only [hr] using h
    | error e =>
      simp only [hr] at h ⊢
      cases hafter : p.after .transport attempt e with
      | giveUp | overflow => simpa only [hafter] using h
      | again next =>
        simp only [hafter] at h ⊢
        exact ih h

/-- A command has one ending at most. -/
theorem Ends.unique {attempts' : Nat} {r' : Except Failure α} (h : p.Ends results attempts r)
    (h' : p.Ends results attempts' r') : attempts = attempts' ∧ r = r' := by
  obtain ⟨fuel, hrun⟩ := h
  obtain ⟨fuel', hrun'⟩ := h'
  have hmore : p.run .transport results (fuel + fuel') = _ := runFrom_add hrun fuel'
  have hmore' : p.run .transport results (fuel' + fuel) = _ := runFrom_add hrun' fuel
  rw [Nat.add_comm fuel' fuel, hmore] at hmore'
  cases hmore'
  exact ⟨rfl, rfl⟩

/-- The attempts of an ending count those made before. -/
theorem lt_of_runFrom {fuel : Nat}
    (h : p.runFrom .transport results fuel made attempt = some (.result attempts r)) :
    made < attempts := by
  induction fuel generalizing made attempt with
  | zero => cases h
  | succ fuel ih =>
    rw [runFrom] at h
    cases hr : results made with
    | ok v =>
      simp only [hr, Option.some.injEq, Ending.result.injEq] at h
      exact h.1 ▸ Nat.lt_succ_self made
    | error e =>
      simp only [hr] at h
      cases hafter : p.after .transport attempt e with
      | giveUp =>
        simp only [hafter, Option.some.injEq, Ending.result.injEq] at h
        exact h.1 ▸ Nat.lt_succ_self made
      | overflow => simp only [hafter, Option.some.injEq, reduceCtorEq] at h
      | again next =>
        simp only [hafter] at h
        exact Nat.lt_of_succ_lt (ih h)

/-- A command that is about to make an attempt has not ended before. -/
theorem Reaches.lt_of_ends (h : p.Reaches results made attempt) (h' : p.Ends results attempts r) :
    made < attempts := by
  obtain ⟨fuel, hrun⟩ := h'
  have hmore : p.run .transport results (fuel + made) = _ := runFrom_add hrun made
  rw [Nat.add_comm, h fuel] at hmore
  exact lt_of_runFrom hmore

/-- A command whose count of attempts has run over has no ending. -/
theorem Reaches.not_ends (h : p.Reaches results made attempt) (hr : results made = .error e)
    (hafter : p.after .transport attempt e = .overflow) : ¬p.Ends results attempts r := by
  rintro ⟨fuel, hrun⟩
  have hover : p.run .transport results (made + 1) = some .overflow := by
    rw [h 1, runFrom]
    simp only [hr, hafter]
  have hmore : p.run .transport results (fuel + (made + 1)) = _ := runFrom_add hrun (made + 1)
  have hmore' : p.run .transport results (made + 1 + fuel) = _ := runFrom_add hover fuel
  rw [Nat.add_comm (made + 1) fuel, hmore] at hmore'
  cases hmore'

/-- A command whose first attempt succeeds ends with it. -/
theorem ends_of_first_ok {v : α} (p : Policy) (hr : results 0 = .ok v) :
    p.Ends results 1 (.ok v) :=
  (Reaches.first p results).ends_of_ok hr

end LoadProbe.Facade.Policy
