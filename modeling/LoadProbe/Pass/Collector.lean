import LoadProbe.Notice

/-!
# Collecting the outcomes of a pass

The runs of a pass finish concurrently, and each delivers its outcome to the collector, which
counts in shared cells. A delivery takes several steps, each a single operation on the cells
(`Delivery.step`): it adds its contribution, takes its number among the received, and if that is
the expected number, reads the cells back, forms the verdict and sends it. `Tally.accept` is a
delivery whose steps no other delivery comes between; what happens when steps of several
deliveries interleave is a matter of `Delivery.step` alone.
-/

namespace LoadProbe.Pass

/-- The final result of a pass. -/
structure Verdict where
  /-- The share of normal runs reached the required ratio. -/
  success : Bool
  /-- Normal runs divided by received runs. -/
  ratio : Float
  /-- The mean time of the normal runs, 0 when there were none. -/
  average : Float
  received : Nat
  /-- Runs that failed, were canceled, or took longer than the threshold. -/
  overtime : Nat

/-- The verdict on a pass that could not start a single run, or whose runs did not all deliver. -/
def Verdict.noRuns : Verdict := ⟨false, 0.0, 0.0, 0, 0⟩

/-- What a pass is judged by. -/
structure Terms where
  /-- Successful runs that took longer than this count as overtime. -/
  threshold : Float
  /-- How many runs the pass has started. -/
  expected : Nat
  /-- The least share of normal runs of a successful pass. -/
  lowestRatio : Float

/-- What a delivered outcome counts as. -/
inductive Contribution where
  | overtime
  /-- A normal run, with its time. -/
  | normal (millis : UInt64)
deriving DecidableEq, Repr

/-- A successful run that took longer than the threshold. -/
def Terms.overdue (t : Terms) (millis : UInt64) : Bool :=
  decide (t.threshold < millis.toFloat)

/-- What an outcome counts as under the terms of the pass. -/
def Terms.contribution (t : Terms) (o : Outcome) : Contribution :=
  match o.status with
  | .canceled => .overtime
  | .error => .overtime
  | .success => if t.overdue o.millis then .overtime else .normal o.millis

/-- What is said of a delivered outcome. -/
def Terms.notice (t : Terms) (o : Outcome) : Notice :=
  match o.status with
  | .canceled => .runCanceled o.millis
  | .error => .runFailed o.millis
  | .success =>
    if t.overdue o.millis then .runOverdue t.threshold o.millis else .runNormal o.millis

/-- Where the verdict goes. -/
inductive Mailbox where
  /-- Somebody waits for the verdict. -/
  | awaited
  | holds (v : Verdict)
  /-- Nobody waits for the verdict any more. -/
  | abandoned

/-- The shared cells of a pass. -/
structure Tally where
  received : Nat
  overtime : Nat
  /-- The time of all normal runs, in a word of 64 bits. -/
  total : UInt64
  /-- The verdict can still be sent. -/
  sender : Bool
  mailbox : Mailbox

/-- The cells at the start of a pass. -/
def Tally.start : Tally := ⟨0, 0, 0, true, .awaited⟩

/-- Nobody waits for the verdict any more; a verdict that lies in the mailbox is lost. -/
def Tally.abandon (s : Tally) : Tally :=
  { s with mailbox := .abandoned }

/-- Adds what an outcome counts as. -/
def Tally.add (s : Tally) : Contribution → Tally
  | .overtime => { s with overtime := s.overtime + 1 }
  | .normal millis => { s with total := s.total + millis }

/-- The verdict over `received` runs of which `overtime` were overtime, `total` being the time of
the others. -/
def Terms.verdict (t : Terms) (received overtime : Nat) (total : UInt64) : Verdict :=
  let normals := received - overtime
  let ratio := if received = 0 then 0.0 else Float.ofNat normals / Float.ofNat received
  let average := if normals = 0 then 0.0 else total.toFloat / Float.ofNat normals
  { success := decide (t.lowestRatio ≤ ratio)
    ratio := ratio
    average := average
    received := received
    overtime := overtime }

/-- Where a delivery stands between two of its steps. -/
inductive Delivery where
  /-- Nothing is done yet. -/
  | fresh (o : Outcome)
  /-- The contribution is added. -/
  | added
  /-- This was the last expected delivery, and the verdict is to be formed over so many runs. -/
  | completing (received : Nat)
  /-- The count of overtime runs has been read. -/
  | counted (received overtime : Nat)
  /-- The verdict is formed and not yet sent. -/
  | judged (v : Verdict)
  /-- The delivery is over; it did or did not complete the pass. -/
  | ended (completed : Bool)

/-- Hands the verdict to whoever waits for it, unless one was sent before. -/
def Tally.send (s : Tally) (v : Verdict) : Tally × List Notice :=
  if s.sender then
    match s.mailbox with
    | .abandoned => ({ s with sender := false }, [.verdictDropped])
    | _ => ({ s with sender := false, mailbox := .holds v }, [])
  else (s, [])

/-- One step of a delivery: a single operation on the shared cells. -/
def Delivery.step (t : Terms) (s : Tally) : Delivery → Tally × Delivery × List Notice
  | fresh o => (s.add (t.contribution o), .added, [t.notice o])
  | added =>
    let received := s.received + 1
    let s := { s with received := received }
    if t.expected < received then (s, .ended false, [.surplusResult t.expected])
    else if received < t.expected then (s, .ended false, [])
    else (s, .completing received, [])
  | completing received => (s, .counted received (min s.overtime received), [])
  | counted received overtime => (s, .judged (t.verdict received overtime s.total), [])
  | judged v =>
    let (s, notices) := s.send v
    (s, .ended true, notices)
  | ended completed => (s, .ended completed, [])

/-- Up to `n` steps of a delivery in a row. -/
def Delivery.steps (t : Terms) : Nat → Tally → Delivery → Tally × Delivery × List Notice
  | 0, s, d => (s, d, [])
  | n + 1, s, d =>
    let (s, d, notices) := d.step t s
    let (s, d, later) := Delivery.steps t n s d
    (s, d, notices ++ later)

/-- How many steps bring any delivery to its end. -/
def Delivery.length : Nat := 5

/-- A delivery that no other one interrupts: the cells after it, whether it completed the pass,
and what was said. -/
def Tally.accept (t : Terms) (s : Tally) (o : Outcome) : Tally × Bool × List Notice :=
  match Delivery.steps t Delivery.length s (.fresh o) with
  | (s, .ended completed, notices) => (s, completed, notices)
  | (s, _, notices) => (s, false, notices)

/-- The verdict in the mailbox. -/
def Tally.verdict? (s : Tally) : Option Verdict :=
  match s.mailbox with
  | .holds v => some v
  | _ => none

end LoadProbe.Pass
