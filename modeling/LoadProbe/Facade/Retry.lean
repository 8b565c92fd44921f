import LoadProbe.Facade.Failure

/-!
# Re-issuing a failed command

A command that failed is issued again at once, without any pause, as long as its failure is of a
kind that is retried and the policy still allows an attempt. Attempts are counted in a word of 32
bits; a policy without a limit never looks at the count, but the count itself must not run over.

`Policy.after` is the decision after one attempt. `Policy.run` follows it along the results that
the attempts would have; the run of a command over a real or scripted server (`LoadProbe.Player`)
takes the same decisions one at a time.
-/

namespace LoadProbe.Facade

/-- How many attempts a command has, `none` for no limit. -/
structure Policy where
  limit : Option UInt32
deriving DecidableEq, Repr

/-- Which failures are followed by another attempt. -/
inductive RetryOn where
  /-- Failures of the transport only. -/
  | transport
  /-- Every failure. -/
  | anyFailure
deriving DecidableEq, Repr

def RetryOn.covers : RetryOn → Failure → Bool
  | transport, e => e.isTransport
  | anyFailure, _ => true

/-- What follows an attempt that failed. -/
inductive AfterFailure where
  /-- Another attempt, the one of this number. -/
  | again (attempt : UInt32)
  /-- The failure is the result. -/
  | giveUp
  /-- The count of attempts has run over its word. -/
  | overflow
deriving DecidableEq, Repr

namespace Policy

/-- No limit. -/
def forever : Policy := ⟨none⟩

/-- At most `n` attempts, but at least one. -/
def bounded (n : UInt32) : Policy := ⟨some (max n 1)⟩

/-- The policy of a tester that says nothing else. -/
def standard : Policy := ⟨none⟩

/-- Attempt number `attempt` was the last one that the policy allows. -/
def exhausted (p : Policy) (attempt : UInt32) : Bool :=
  match p.limit with
  | some n => decide (n ≤ attempt)
  | none => false

/-- What follows attempt number `attempt`, which failed with `e`. -/
def after (p : Policy) (on : RetryOn) (attempt : UInt32) (e : Failure) : AfterFailure :=
  if !on.covers e || p.exhausted attempt then .giveUp
  else if attempt = UInt32.ofNat 4294967295 then .overflow
  else .again (attempt + 1)

end Policy

/-- How a command that was issued under a policy ended. -/
inductive Ending (α : Type) where
  /-- The result of the last attempt, and how many attempts there were. -/
  | result (attempts : Nat) (r : Except Failure α)
  /-- The count of attempts ran over. -/
  | overflow

namespace Policy

variable {α : Type}

/-- The command under a policy from attempt number `attempt` on, `before` attempts having been
made and the `i`-th attempt having the result `results i`; `none` when `fuel` further attempts
are not enough. -/
def runFrom (p : Policy) (on : RetryOn) (results : Nat → Except Failure α) :
    Nat → Nat → UInt32 → Option (Ending α)
  | 0, _, _ => none
  | fuel + 1, before, attempt =>
    match results before with
    | .ok v => some (.result (before + 1) (.ok v))
    | .error e =>
      match p.after on attempt e with
      | .giveUp => some (.result (before + 1) (.error e))
      | .overflow => some .overflow
      | .again next => runFrom p on results fuel (before + 1) next

/-- The command under a policy, its attempts having the given results in turn, `none` when
`fuel` attempts are not enough. -/
def run (p : Policy) (on : RetryOn) (results : Nat → Except Failure α) (fuel : Nat) :
    Option (Ending α) :=
  runFrom p on results fuel 0 1

end Policy

end LoadProbe.Facade
