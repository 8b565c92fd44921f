import LoadProbe.Pass.Collector

/-!
# Adapting the number of executors

After a pass that succeeded the number of executors grows, by the expanding factor while no pass
has failed and by the refining factor afterwards, and by 2 at least; after a pass that failed it
shrinks, by 1 at least. Passes of the expanding phase are free; every other pass is charged
against the budget, and so is a success at the upper bound, where there is no more growing. The
best passing number is the result.

`State.advance` is one such decision, and `converge` makes passes until the budget is spent. That
it ends is a property of `advance` for any verdicts at all: a pass that is not charged leaves the
budget alone and brings the number of executors closer to the bound (`State.advance_decreases`).
-/

namespace LoadProbe.Pass

open Number

/-- What steers the passes of a scenario. -/
structure Settings where
  /-- Executors of the first pass. -/
  initial : Int
  /-- The number that growing never exceeds. -/
  upper : Int
  /-- The growing factor until a pass fails. -/
  expand : Float
  /-- The growing factor after a pass has failed. -/
  refine : Float
  shrink : Float
  /-- A run is overtime when it takes longer than the baseline times this. -/
  overtime : Float
  /-- The share of normal runs that a pass needs to succeed. -/
  success : Float
  /-- How many charged passes are made. -/
  maxRefine : Nat
  /-- The plain mode: no bound on growing, the last success is the best, every pass is charged. -/
  compat : Bool

/-- The best passing number of executors, and the average time of its runs. -/
structure Best where
  executors : Int
  average : Float

/-- What one pass leaves to the next. -/
structure State where
  executors : Int
  best : Best
  /-- Some pass has failed; this stays so. -/
  hasFailed : Bool
  /-- How many passes were charged. -/
  passIndex : Nat

/-- `executors * factor`, rounded down, in a signed word of 64 bits. -/
def scale (executors : Int) (factor : Float) : Int :=
  floorIn signed64 (Float.ofInt executors * factor)

namespace State

/-- The state before the first pass. -/
def initial (executors : Int) : State := ⟨executors, ⟨0, 0.0⟩, false, 0⟩

/-- The budget is spent. -/
def exhausted (s : Settings) (st : State) : Bool :=
  decide (s.maxRefine ≤ st.passIndex)

/-- More executors are better; equally many are better with a lower average. -/
def improves (st : State) (executors : Int) (average : Float) : Bool :=
  decide (st.best.executors < executors) ||
    (decide (executors = st.best.executors) && decide (average < st.best.average))

/-- The number of executors after a success. -/
def grown (s : Settings) (st : State) : Int :=
  let k := st.executors
  let scaled := scale k (if st.hasFailed then s.refine else s.expand)
  let next := if scaled ≤ k + 1 then k + 2 else scaled
  if s.compat then next else min next s.upper

/-- The number of executors after a failure. -/
def shrunk (s : Settings) (st : State) : Int :=
  let k := st.executors
  let scaled := scale k s.shrink
  if scaled = k then k - 1 else scaled

/-- A success that is charged against the budget. -/
def charged (s : Settings) (st : State) : Bool :=
  s.compat || st.hasFailed || decide (s.upper ≤ st.executors)

/-- The state after a pass with this verdict. -/
def advance (s : Settings) (st : State) (v : Verdict) : State :=
  if v.success then
    { executors := st.grown s
      best := if s.compat || st.improves st.executors v.average then
          ⟨st.executors, v.average⟩ else st.best
      hasFailed := st.hasFailed
      passIndex := st.passIndex + (if st.charged s then 1 else 0) }
  else
    { executors := st.shrunk s
      best := st.best
      hasFailed := true
      passIndex := st.passIndex + 1 }

/-- A pass that is not charged is a success below the bound, and the next number of executors is
greater. -/
theorem lt_grown_of_not_charged {s : Settings} {st : State} (h : st.charged s = false) :
    st.executors < st.grown s := by
  simp only [charged, Bool.or_eq_false_iff, decide_eq_false_iff_not, Int.not_le] at h
  obtain ⟨⟨hc, _⟩, hu⟩ := h
  simp only [grown, hc, Bool.false_eq_true, ite_false]
  split <;> omega

/-- Every pass spends budget, or brings the number of executors closer to the bound. -/
theorem advance_decreases {s : Settings} {st : State} (h : st.exhausted s = false) (v : Verdict) :
    Prod.Lex (· < ·) (· < ·)
      (s.maxRefine - (st.advance s v).passIndex, (s.upper - (st.advance s v).executors).toNat)
      (s.maxRefine - st.passIndex, (s.upper - st.executors).toNat) := by
  simp only [exhausted, decide_eq_false_iff_not, Nat.not_le] at h
  unfold advance
  split
  · cases hc : st.charged s with
    | true =>
      apply Prod.Lex.left
      simp only [ite_true]
      omega
    | false =>
      have hlt := lt_grown_of_not_charged hc
      simp only [charged, Bool.or_eq_false_iff, decide_eq_false_iff_not, Int.not_le] at hc
      simp only [Bool.false_eq_true, ite_false, Nat.add_zero]
      apply Prod.Lex.right
      omega
  · apply Prod.Lex.left
    simp only
    omega

end State

/-- What is said after a pass. -/
def passNotices (st next : State) (v : Verdict) : List Notice :=
  [.passFinished st.executors,
    if v.success then .passGrew st.executors next.executors v.average
    else .passShrank st.executors next.executors v.average]

/-- Makes passes from state `st` on until the budget is spent. The world `w` is what a pass of so
many executors acts on. -/
def converge {σ : Type} (s : Settings) (pass : σ → Int → σ × Verdict × List Notice) (w : σ)
    (st : State) : σ × State × List Notice :=
  if _h : st.exhausted s = true then (w, st, [])
  else
    match pass w st.executors with
    | (w, v, said) =>
      let next := st.advance s v
      let (w, last, later) := converge s pass w next
      (w, last, said ++ passNotices st next v ++ later)
termination_by (s.maxRefine - st.passIndex, (s.upper - st.executors).toNat)
decreasing_by exact State.advance_decreases (Bool.eq_false_iff.mpr _h) v

end LoadProbe.Pass
