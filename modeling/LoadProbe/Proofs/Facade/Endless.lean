import LoadProbe.Proofs.Facade.LastAttempt

/-!
# A command without a limit

A policy without a limit never gives up on a failure that is retried
(`Policy.not_last_of_covers`), and the success that follows is the result, after one more call than
there were failures. That holds as long as the calls can be counted: the attempt that fills the word
of the count is followed by no other one (`Policy.after_of_full`), although nothing in this policy
asks for the count. `Policy.forever_run` says for every number of failures which of the two happens.
-/

namespace LoadProbe.Facade.Policy

variable {α : Type} {on : RetryOn} {results : Nat → Except Failure α} {p : Policy}
variable {attempt : UInt32} {e : Failure} {n made : Nat} {v : α}

/-- The attempts before this one fail in a way that is retried. -/
def RetriedBefore (on : RetryOn) (results : Nat → Except Failure α) (n : Nat) : Prop :=
  ∀ k < n, ∃ e, results k = .error e ∧ on.covers e = true

theorem RetriedBefore.mono (h : RetriedBefore on results n) (hle : made ≤ n) :
    RetriedBefore on results made :=
  fun k hk => h k (Nat.lt_of_lt_of_le hk hle)

/-- Without a limit only a success, or a failure that is not retried, is a last attempt. -/
theorem not_last_of_covers (hr : results made = .error e) (hcovers : on.covers e = true) :
    ¬IsLast none on results made := by
  rw [isLast_error_iff hr, hcovers]
  rintro (hnot | ⟨n, hn, -⟩)
  · cases hnot
  · cases hn

theorem RetriedBefore.not_last (h : RetriedBefore on results n) :
    ∀ k < n, ¬IsLast none on results k := fun k hk => by
  obtain ⟨e, hr, hcovers⟩ := h k hk
  exact not_last_of_covers hr hcovers

/-- The attempt whose number fills the word is followed by no other one. -/
theorem after_of_full (hcovers : on.covers e = true) (hallowed : p.exhausted attempt = false)
    (hfull : attempt.toNat + 1 = 2 ^ 32) : p.after on attempt e = .overflow := by
  have hlast : attempt = UInt32.ofNat 4294967295 := by
    rw [← UInt32.toNat_inj, UInt32.toNat_ofNat']
    omega
  simp only [after, hcovers, hallowed, Bool.not_true, Bool.or_self, Bool.false_eq_true, if_false,
    if_pos hlast]

/-- As long as the attempts are retried and can be counted, the command goes on with the next. -/
theorem RetriedBefore.goes_on (h : RetriedBefore on results n) (hword : n + 1 < 2 ^ 32) :
    ∃ attempt : UInt32, attempt.toNat = n + 1 ∧ ∀ fuel,
      forever.run on results (n + fuel) = forever.runFrom on results fuel n attempt :=
  run_of_not_last h.not_last hword

/-- Failures for every number of the word: the count runs over after the last of these numbers. -/
theorem forever_run_overflow (h : RetriedBefore on results (2 ^ 32 - 1)) (fuel : Nat) :
    forever.run on results fuel = if fuel + 1 < 2 ^ 32 then none else some .overflow := by
  split
  · next hlt =>
    obtain ⟨attempt, -, hrun⟩ := (h.mono (show fuel ≤ 2 ^ 32 - 1 by omega)).goes_on hlt
    exact hrun 0
  · next hge =>
    obtain ⟨more, rfl⟩ : ∃ more, fuel = (2 ^ 32 - 2) + (more + 1) :=
      ⟨fuel - (2 ^ 32 - 1), by omega⟩
    obtain ⟨attempt, hattempt, hrun⟩ :=
      (h.mono (show 2 ^ 32 - 2 ≤ 2 ^ 32 - 1 by omega)).goes_on (by omega)
    obtain ⟨e, hr, hcovers⟩ := h (2 ^ 32 - 2) (by omega)
    have hafter : forever.after on attempt e = .overflow := after_of_full hcovers rfl (by omega)
    rw [hrun (more + 1), runFrom]
    simp only [hr, hafter]

/-- Without a limit, failures that are retried and then a success: as long as the calls can be
counted in a word of 32 bits, the success is the result after one more call than there were
failures. With as many failures as the word has numbers, or more, the success is not reached: the
count runs over when all these numbers are used up. -/
theorem forever_run (on : RetryOn) (results : Nat → Except Failure α) (n : Nat) (v : α)
    (hfail : RetriedBefore on results n) (hok : results n = .ok v) :
    (n + 1 < 2 ^ 32 → ∀ fuel, forever.run on results fuel =
      if fuel ≤ n then none else some (.result (n + 1) (.ok v))) ∧
    (2 ^ 32 ≤ n + 1 → ∀ fuel, forever.run on results fuel =
      if fuel + 1 < 2 ^ 32 then none else some .overflow) := by
  constructor
  · intro hword fuel
    have hrun := run_eq_of_last hfail.not_last (.inl ⟨v, hok⟩) hword fuel
    rwa [hok] at hrun
  · intro hword fuel
    exact forever_run_overflow (hfail.mono (by omega)) fuel

/-- Five lost calls and then a success, and the same with rejections when every failure is retried:
six calls. So many lost calls that their count fills the word: no result. -/
theorem forever_run_lost :
    let after (n : Nat) (e : Failure) : Nat → Except Failure Nat :=
      fun k => if k < n then .error e else .ok 7
    forever.run .transport (after 5 .transport) 9 = some (.result 6 (.ok 7)) ∧
    forever.run .anyFailure (after 5 (.rejected (some 1) "[]")) 9 = some (.result 6 (.ok 7)) ∧
    forever.run .transport (after 5000000000 .transport) 5000000001 = some .overflow := by
  intro after
  have hretried : ∀ {on : RetryOn} {n e}, on.covers e = true → RetriedBefore on (after n e) n :=
    fun hcovers k hk => ⟨_, if_pos hk, hcovers⟩
  have hok : ∀ n e, after n e n = .ok 7 := fun n e => if_neg (Nat.lt_irrefl n)
  refine ⟨?_, ?_, ?_⟩
  · exact (forever_run _ _ 5 7 (hretried rfl) (hok _ _)).1 (by omega) 9
  · exact (forever_run _ _ 5 7 (hretried rfl) (hok _ _)).1 (by omega) 9
  · exact (forever_run _ _ 5000000000 7 (hretried rfl) (hok _ _)).2 (by omega) 5000000001

/-- A success after as many lost calls as the word has numbers above 0 is never the result, with
however many calls, and with either kind of retries. -/
theorem forever_run_never_ok :
    let results : Nat → Except Failure Nat :=
      fun k => if k < 2 ^ 32 - 1 then .error .transport else .ok 7
    results (2 ^ 32 - 1) = .ok 7 ∧
    ∀ on, RetriedBefore on results (2 ^ 32 - 1) ∧
      (∀ fuel calls, forever.run on results fuel ≠ some (.result calls (.ok 7))) ∧
      forever.run on results (2 ^ 32) = some .overflow := by
  intro results
  refine ⟨if_neg (Nat.lt_irrefl _), fun on => ?_⟩
  have hretried : RetriedBefore on results (2 ^ 32 - 1) :=
    fun k hk => ⟨.transport, if_pos hk, by cases on <;> rfl⟩
  have hrun := forever_run_overflow hretried
  refine ⟨hretried, fun fuel calls => ?_, ?_⟩
  · rw [hrun fuel]
    split <;> simp
  · rw [hrun, if_neg (by omega)]

end LoadProbe.Facade.Policy
