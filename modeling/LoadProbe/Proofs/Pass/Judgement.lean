import LoadProbe.Pass.Launcher
import LoadProbe.Proofs.Number.Arithmetic
import Mathlib.Algebra.BigOperators.Group.List.Basic
import Mathlib.Data.UInt

/-!
# The verdict on a pass

`Terms.judge` is the verdict on a list of outcomes, without any cells: it counts the normal runs
and adds up their times (`judge_average`). Deliveries that nothing comes between collect the
outcomes one after the other (`Collected`), and the last expected one sends this verdict. A pass all
of whose runs deliver is judged by their outcomes, and any other pass has no runs (`pass_verdict`).
-/

namespace LoadProbe.Pass

open Number

namespace Terms

variable (t : Terms)

/-- A successful run that did not take longer than the threshold. -/
def normal (o : Outcome) : Bool :=
  o.status.isSuccess && !t.overdue o.millis

/-- The times of the normal runs. -/
def times (os : List Outcome) : List UInt64 :=
  (os.filter t.normal).map (·.millis)

/-- How many runs failed, were canceled, or took longer than the threshold. -/
def late (os : List Outcome) : Nat :=
  os.countP fun o => !t.normal o

/-- The verdict on these outcomes. -/
def judge (os : List Outcome) : Verdict :=
  t.verdict os.length (t.late os) (t.times os).sum

/-- A normal run contributes its time, and any other run counts as overtime. -/
theorem contribution_eq (o : Outcome) :
    t.contribution o = if t.normal o then .normal o.millis else .overtime := by
  obtain ⟨status, millis⟩ := o
  cases status with
  | canceled | error => rfl
  | success => cases h : t.overdue millis <;> simp [contribution, normal, RunStatus.isSuccess, h]

variable {t}

/-- Every run is normal or late. -/
theorem length_times_add_late (os : List Outcome) :
    (t.times os).length + t.late os = os.length := by
  rw [times, List.length_map, late, ← List.countP_eq_length_filter]
  simpa using (List.length_eq_countP_add_countP t.normal (l := os)).symm

/-- Times are added up in a word. -/
theorem toNat_sum (times : List UInt64) :
    times.sum.toNat = (times.map (·.toNat)).sum % 2 ^ 64 := by
  induction times with
  | nil => rfl
  | cons a times ih =>
    rw [List.sum_cons, UInt64.toNat_add, ih, List.map_cons, List.sum_cons]
    omega

/-- One more outcome adds to the late runs or to the times. -/
theorem late_concat (os : List Outcome) (o : Outcome) :
    t.late (os ++ [o]) = t.late os + if t.normal o then 0 else 1 := by
  cases h : t.normal o <;> simp [late, h]

theorem sum_times_concat (os : List Outcome) (o : Outcome) :
    (t.times (os ++ [o])).sum = (t.times os).sum + if t.normal o then o.millis else 0 := by
  cases h : t.normal o <;> simp [times, h]

/-- The verdict depends on the outcomes alone, and not on their order. -/
theorem judge_perm {os os' : List Outcome} (h : os.Perm os') : t.judge os = t.judge os' := by
  have htimes : (t.times os).Perm (t.times os') := (h.filter t.normal).map Outcome.millis
  have hsum : (t.times os).sum = (t.times os').sum := by
    apply UInt64.toNat_inj.1
    rw [toNat_sum, toNat_sum, (htimes.map (·.toNat)).sum_eq]
  rw [judge, judge, h.length_eq, hsum, late, late, h.countP_eq]

/-! ## The fields of a verdict -/

/-- The share of the normal runs. -/
theorem judge_ratio {os : List Outcome} (hos : os ≠ []) :
    (t.judge os).ratio = Float.ofNat (t.times os).length / Float.ofNat os.length := by
  have := length_times_add_late (t := t) os
  have hne : os.length ≠ 0 := List.length_eq_zero_iff.not.2 hos
  simp only [judge, verdict, if_neg hne]
  congr 2
  omega

/-- A pass succeeds when the share of the normal runs is great enough. -/
theorem judge_success (os : List Outcome) :
    (t.judge os).success = true ↔ t.lowestRatio ≤ (t.judge os).ratio := by
  simp [judge, verdict]

/-- The share of the normal runs lies between 0 and 1. -/
theorem judge_ratio_mem {os : List Outcome} (hos : os ≠ []) (hlt : os.length < 2 ^ 64) :
    0.0 ≤ (t.judge os).ratio ∧ (t.judge os).ratio ≤ 1.0 := by
  have := length_times_add_late (t := t) os
  rw [judge_ratio hos]
  exact share_mem (by omega) (List.length_pos_iff.2 hos) hlt

/-- The mean time of the normal runs, as long as their times fit in a word, and 0 when there are
none. -/
theorem judge_average {os : List Outcome} (hsum : ((t.times os).map (·.toNat)).sum < 2 ^ 64) :
    (t.judge os).average = if t.times os = [] then 0.0
      else Float.ofNat ((t.times os).map (·.toNat)).sum / Float.ofNat (t.times os).length := by
  have := length_times_add_late (t := t) os
  have hnormals : os.length - t.late os = (t.times os).length := by omega
  simp only [judge, verdict, hnormals, List.length_eq_zero_iff]
  rw [toFloat_eq, toNat_sum, Nat.mod_eq_of_lt hsum]

/-- A pass that succeeds with a positive share has a normal run. -/
theorem times_ne_nil_of_success {os : List Outcome} (hpos : 0.0 < t.lowestRatio) (hos : os ≠ [])
    (h : (t.judge os).success = true) : t.times os ≠ [] := by
  intro hnil
  rw [judge_success, judge_ratio hos, hnil] at h
  exact not_le_share_zero hpos _ h

end Terms

/-! ## Deliveries one after the other -/

/-- The cells after an outcome was added and its number taken. -/
def Tally.take (t : Terms) (s : Tally) (o : Outcome) : Tally :=
  { s.add (t.contribution o) with received := s.received + 1 }

/-- A delivery that nothing comes between takes a number, and the last expected one sends the
verdict on what the cells then hold. -/
theorem Tally.accept_eq (t : Terms) (s : Tally) (o : Outcome) :
    (s.accept t o).1 =
      if (s.take t o).received = t.expected then
        ((s.take t o).send (t.verdict (s.take t o).received
          (min (s.take t o).overtime (s.take t o).received) (s.take t o).total)).1
      else s.take t o := by
  have hreceived : (s.add (t.contribution o)).received = s.received := by
    cases t.contribution o <;> rfl
  rcases lt_trichotomy (s.received + 1) t.expected with hlt | heq | hgt
  · simp [Tally.accept, Delivery.length, Delivery.steps, Delivery.step, Tally.take, hreceived, hlt,
      hlt.ne, hlt.not_gt]
  · simp [Tally.accept, Delivery.length, Delivery.steps, Delivery.step, Tally.take, hreceived, heq]
  · simp [Tally.accept, Delivery.length, Delivery.steps, Delivery.step, Tally.take, hreceived, hgt,
      hgt.ne']

/-- The cells after these outcomes were delivered, no more than the expected ones. -/
structure Collected (t : Terms) (os : List Outcome) (s : Tally) : Prop where
  received : s.received = os.length
  overtime : s.overtime = t.late os
  total : s.total = (t.times os).sum
  awaited : os.length < t.expected → s.sender = true ∧ s.mailbox = .awaited
  sent : os.length = t.expected → s.mailbox = .holds (t.judge os)

theorem Collected.start {t : Terms} (h : 0 < t.expected) : Collected t [] .start :=
  ⟨rfl, rfl, rfl, fun _ => ⟨rfl, rfl⟩, fun h' => absurd h' h.ne⟩

/-- A delivery that nothing comes between adds its outcome, and the last expected one sends the
verdict. -/
theorem Collected.accept {t : Terms} {os : List Outcome} {s : Tally} (h : Collected t os s)
    (hlt : os.length < t.expected) (o : Outcome) : Collected t (os ++ [o]) (s.accept t o).1 := by
  obtain ⟨hsender, hmailbox⟩ := h.awaited hlt
  have hlen : (os ++ [o]).length = os.length + 1 := List.length_append
  have hlate : t.late (os ++ [o]) ≤ (os ++ [o]).length := List.countP_le_length
  have hreceived : (s.take t o).received = (os ++ [o]).length := by
    rw [Tally.take, hlen, h.received]
  have hovertime : (s.take t o).overtime = t.late (os ++ [o]) := by
    rw [Tally.take, Terms.contribution_eq, Terms.late_concat, ← h.overtime]
    split <;> rfl
  have htotal : (s.take t o).total = (t.times (os ++ [o])).sum := by
    rw [Tally.take, Terms.contribution_eq, Terms.sum_times_concat, ← h.total]
    split
    · rfl
    · exact (UInt64.add_zero _).symm
  have hcells : (s.take t o).sender = true ∧ (s.take t o).mailbox = .awaited := by
    rw [Tally.take, Terms.contribution_eq, ← hsender, ← hmailbox]
    split <;> exact ⟨rfl, rfl⟩
  rw [Tally.accept_eq]
  generalize s.take t o = s' at hreceived hovertime htotal hcells ⊢
  split
  · have hsent : s'.send (t.verdict s'.received (min s'.overtime s'.received) s'.total) =
        ({ s' with sender := false, mailbox := .holds (t.judge (os ++ [o])) }, []) := by
      rw [Tally.send, hcells.1, hcells.2, hreceived, hovertime, htotal, min_eq_left hlate]
      rfl
    rw [hsent]
    exact ⟨hreceived, hovertime, htotal, fun h' => absurd h' (by omega), fun _ => rfl⟩
  · rename_i hne
    exact ⟨hreceived, hovertime, htotal, fun _ => hcells, fun h' => absurd (hreceived.trans h') hne⟩

/-- The outcomes that are delivered in events, in the order of time. -/
def outcomes (events : List Event) : List Outcome :=
  (fates events).filterMap Fate.outcome?

/-- The events of a pass deliver their outcomes one after the other. -/
theorem Collected.deliver {t : Terms} {os : List Outcome} {s : Tally} (events : List Event)
    (h : Collected t os s) (hle : (os ++ outcomes events).length ≤ t.expected) :
    Collected t (os ++ outcomes events) (deliver t s events).1 := by
  induction events generalizing os s with
  | nil => rwa [show outcomes [] = [] from rfl, List.append_nil]
  | cons e events ih =>
    cases e with
    | report n => exact ih h hle
    | ended fate =>
      cases fate with
      | crash => exact ih h hle
      | outcome o =>
        have hcons : os ++ outcomes (.ended (.outcome o) :: events) =
            os ++ [o] ++ outcomes events := by
          rw [List.append_assoc]
          rfl
        rw [hcons] at hle ⊢
        refine ih (h.accept ?_ o) hle
        simp only [List.length_append, List.length_singleton] at hle
        omega

/-- A crash delivers nothing, and every other run delivers its outcome. -/
theorem length_outcomes (events : List Event) :
    (outcomes events).length + (fates events).count .crash = (fates events).length := by
  unfold outcomes
  induction fates events with
  | nil => rfl
  | cons fate rest ih =>
    cases fate with
    | crash =>
      rw [List.filterMap_cons_none rfl, List.count_cons_self, List.length_cons]
      omega
    | outcome o =>
      have hsome : Fate.outcome? (.outcome o) = some o := rfl
      have hne : Fate.outcome o ≠ .crash := nofun
      rw [List.filterMap_cons_some hsome, List.length_cons, List.count_cons_of_ne hne,
        List.length_cons]
      omega

/-! ## The verdict on a pass -/

/-- What a pass of so many runs is judged by. -/
def passTerms (s : Settings) (threshold : Float) (count : Nat) : Terms :=
  ⟨threshold, count, s.success⟩

section Pass

variable {σ : Type} {l : Launcher σ} {s : Settings} {threshold : Float} {w : σ} {executors : Int}

/-- A pass without executors leaves the world alone, and only says so. -/
theorem pass_empty (h : executors ≤ 0) :
    pass l s threshold w executors = (w, .noRuns, [.passEmpty executors]) := by
  simp only [pass, h, if_true]

/-- Without runs no pass succeeds. -/
theorem pass_of_nonpos (h : executors ≤ 0) :
    (pass l s threshold w executors).2.1 = .noRuns := by
  rw [pass_empty h]

/-- The verdict on a pass is the one that its events leave in the mailbox. -/
theorem pass_eq_getD (h : 0 < executors) :
    (pass l s threshold w executors).2.1 =
      ((deliver (passTerms s threshold executors.toNat) .start
        (l.together w executors.toNat).2).1.verdict?).getD .noRuns := by
  cases hv : (deliver (passTerms s threshold executors.toNat) .start
      (l.together w executors.toNat).2).1.verdict? <;>
    simp only [passTerms] at hv <;>
    simp only [pass, if_neg (not_le.2 h), hv, Option.getD]

/-- A pass whose runs all deliver is judged by their outcomes, and any other one counts as a pass
without runs. -/
theorem pass_verdict (h : 0 < executors) :
    (pass l s threshold w executors).2.1 =
      if .crash ∈ fates (l.together w executors.toNat).2 then .noRuns
      else (passTerms s threshold executors.toNat).judge
        (outcomes (l.together w executors.toNat).2) := by
  obtain ⟨events, hevents⟩ : ∃ events, (l.together w executors.toNat).2 = events := ⟨_, rfl⟩
  have hcomplete := l.complete w executors.toNat
  have hlength := length_outcomes events
  rw [pass_eq_getD h]
  rw [hevents] at hcomplete ⊢
  have hcollected := (Collected.start (t := passTerms s threshold executors.toNat)
    (show 0 < executors.toNat by omega)).deliver events
    (by rw [List.nil_append]; exact (by omega : (outcomes events).length ≤ executors.toNat))
  rw [List.nil_append] at hcollected
  split
  · rename_i hcrash
    have := List.count_pos_iff.2 hcrash
    obtain ⟨-, hmailbox⟩ := hcollected.awaited
      (by omega : (outcomes events).length < executors.toNat)
    rw [Tally.verdict?, hmailbox]
    rfl
  · rename_i hcrash
    have := List.count_eq_zero.2 hcrash
    have hmailbox := hcollected.sent (by omega : (outcomes events).length = executors.toNat)
    rw [Tally.verdict?, hmailbox]
    rfl

end Pass

end LoadProbe.Pass
