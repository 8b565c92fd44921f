import LoadProbe.Run.Lifecycle

/-!
# The outcome of a run

A run ends with a status and the time from the first attempt to submit it to its terminal reply.
All arithmetic on run times is on whole milliseconds in a word of 64 bits.
-/

namespace LoadProbe

/-- How a run ended and how many milliseconds it took, in a word of 64 bits. -/
structure Outcome where
  status : RunStatus
  millis : UInt64
deriving DecidableEq, Repr

namespace Outcome

/-- The outcome of a run that took `nanos` nanoseconds: whole milliseconds, rounded down, in a
word of 64 bits. -/
def ofNanos (status : RunStatus) (nanos : Nat) : Outcome :=
  ⟨status, (nanos / 1000000).toUInt64⟩

/-- The outcome of a run that took `millis` milliseconds. -/
def ofMillis (status : RunStatus) (millis : Nat) : Outcome :=
  ofNanos status (millis * 1000000)

theorem ofMillis_millis (status : RunStatus) (millis : Nat) :
    (ofMillis status millis).millis = millis.toUInt64 := by
  simp [ofMillis, ofNanos]

end Outcome

/-- What becomes of a launched run: it delivers an outcome, or its task dies and delivers
nothing. -/
inductive Fate where
  | outcome (o : Outcome)
  | crash
deriving DecidableEq, Repr

/-- The outcome that a run delivers. -/
def Fate.outcome? : Fate → Option Outcome
  | .outcome o => some o
  | .crash => none

end LoadProbe
