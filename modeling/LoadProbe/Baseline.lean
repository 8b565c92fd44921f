import LoadProbe.Pass.Launcher

/-!
# The baseline

Before a scenario stresses the server, a few runs are made one after another on the idle server,
and their mean time becomes the baseline. The first run that does not succeed ends the
measurement; the runs that succeeded before it still count.
-/

namespace LoadProbe.Baseline

open Pass

/-- How a measurement ended. -/
inductive Result where
  /-- The mean time of the successful runs. -/
  | mean (millis : Float)
  /-- No run succeeded. -/
  | failed
  /-- A run crashed, and the tester with it. -/
  | crashed

/-- The mean of `runs` times that add up to `total`. -/
def mean (total : UInt64) (runs : Nat) : Float :=
  total.toFloat / Float.ofNat runs

/-- The mean of the times measured so far, if there are any. -/
def soFar (total : UInt64) (runs : Nat) : Result :=
  if runs = 0 then .failed else .mean (mean total runs)

/-- The trials after the first `runs` ones, whose times add up to `total`; `remaining` further
ones are made at most. When all of them have succeeded, the mean is taken over the limit. -/
def trials {σ : Type} (l : Launcher σ) (limit : Nat) :
    Nat → Nat → UInt64 → σ → σ × Result × List Notice
  | 0, _, total, w => (w, .mean (mean total limit), [])
  | remaining + 1, runs, total, w =>
    match l.single w with
    | (w, said, .crash) => (w, .crashed, said)
    | (w, said, .outcome o) =>
      if o.status.isSuccess then
        let (w, result, later) := trials l limit remaining (runs + 1) (total + o.millis) w
        (w, result, said ++ .trialTook (runs + 1) limit o.millis :: later)
      else
        (w, soFar total runs, said ++ [.trialFailed (runs + 1) o.status o.millis])

/-- Makes up to `limit` trials. -/
def measure {σ : Type} (l : Launcher σ) (limit : Nat) (w : σ) : σ × Result × List Notice :=
  if limit = 0 then (w, .failed, [.noTrials]) else trials l limit limit 0 0 w

end LoadProbe.Baseline
