/-!
# How many runs began when

`Starts` counts events by the millisecond in which they happened.
-/

namespace LoadProbe.Rehearsal

/-- Times with counts, the latest time first, each time once. -/
structure Starts where
  latestFirst : List (Nat × Nat)
deriving DecidableEq, Repr

namespace Starts

def none : Starts := ⟨[]⟩

/-- One more event at a time that is not before any noted one. -/
def note (s : Starts) (now : Nat) : Starts :=
  match s.latestFirst with
  | (time, count) :: rest =>
    if time = now then ⟨(time, count + 1) :: rest⟩ else ⟨(now, 1) :: (time, count) :: rest⟩
  | [] => ⟨[(now, 1)]⟩

/-- Times with counts, in the order of time. -/
def toList (s : Starts) : List (Nat × Nat) :=
  s.latestFirst.reverse

/-- How many events there were. -/
def total (s : Starts) : Nat :=
  s.latestFirst.foldr (fun x n => x.2 + n) 0

end Starts

end LoadProbe.Rehearsal
