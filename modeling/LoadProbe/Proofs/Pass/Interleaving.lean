import LoadProbe.Proofs.Pass.Judgement

/-!
# Deliveries that interleave

A `Scene` is a number of calls that deliver outcomes at once, and the cells that they share. A
schedule names the call that makes the next step, so any schedule is one interleaving of the steps
of all calls. What the cells hold is determined by how far each call has come (`Tallied`), however
many calls there are. When there are as many as the pass expects outcomes, no step of a call changes
what they read and send, either (`Coherent.step`): a call adds its outcome before it takes a number,
so all outcomes are in the cells when the last expected number is taken (`Coherent.full`), and only
the call that took it goes on to form and send the verdict. Once the verdict was sent, calls that
begin later find no sender any more (`Closed`).
-/

namespace LoadProbe.Pass

/-- A call that delivers an outcome. -/
structure Call where
  outcome : Outcome
  delivery : Delivery

namespace Call

/-- A call that has not done anything yet. -/
def begin (o : Outcome) : Call := ⟨o, .fresh o⟩

/-- The outcome is in the cells. -/
def added (k : Call) : Bool :=
  match k.delivery with
  | .fresh _ => false
  | _ => true

/-- The number is taken. -/
def taken (k : Call) : Bool :=
  match k.delivery with
  | .fresh _ => false
  | .added => false
  | _ => true

/-- The last expected number was taken. -/
def completes (k : Call) : Bool :=
  match k.delivery with
  | .completing _ => true
  | .counted _ _ => true
  | .judged _ => true
  | .ended completed => completed
  | _ => false

/-- The call is over, and it returned `completed`. -/
def returned (completed : Bool) (k : Call) : Bool :=
  match k.delivery with
  | .ended c => c == completed
  | _ => false

/-- How many steps are left at most. -/
def left (k : Call) : Nat :=
  match k.delivery with
  | .fresh _ => 5
  | .added => 4
  | .completing _ => 3
  | .counted _ _ => 2
  | .judged _ => 1
  | .ended _ => 0

/-- A call adds its outcome before it takes a number. -/
theorem added_of_taken {k : Call} (h : k.taken = true) : k.added = true := by
  obtain ⟨o, d⟩ := k
  cases d with
  | fresh o' => exact absurd h Bool.false_ne_true
  | _ => rfl

/-- A call returns true only after it took the last number. -/
theorem completes_of_returned {k : Call} (h : k.returned true = true) : k.completes = true := by
  obtain ⟨o, d⟩ := k
  cases d with
  | ended completed => exact beq_iff_eq.1 h
  | _ => exact absurd h Bool.false_ne_true

/-- Each step leaves one step less. -/
theorem left_step (k : Call) (t : Terms) (s : Tally) :
    { k with delivery := (k.delivery.step t s).2.1 }.left ≤ k.left - 1 := by
  obtain ⟨o, d⟩ := k
  cases d with
  | added =>
    simp only [Delivery.step]
    split
    · exact Nat.zero_le _
    · split
      · exact Nat.zero_le _
      · exact Nat.le_refl _
  | _ => exact Nat.le_refl _

theorem left_le (k : Call) : k.left ≤ Delivery.length := by
  obtain ⟨o, d⟩ := k
  cases d <;> simp [left, Delivery.length]

/-- A call without further steps is over. -/
theorem returned_of_left {k : Call} (h : k.left = 0) :
    k.returned true = true ∨ k.returned false = true := by
  obtain ⟨o, d⟩ := k
  cases d with
  | ended completed => cases completed <;> simp [Call.returned]
  | _ => cases h

theorem taken_of_left {k : Call} (h : k.left = 0) : k.taken = true := by
  obtain ⟨o, d⟩ := k
  cases d with
  | ended completed => rfl
  | _ => cases h

/-- A call that is over has returned true exactly when it took the last number. -/
theorem completes_of_left {k : Call} (h : k.left = 0) : k.completes = k.returned true := by
  obtain ⟨o, d⟩ := k
  cases d with
  | ended completed => cases completed <;> rfl
  | _ => cases h

end Call

/-- Calls at once, and the cells that they share. -/
structure Scene where
  tally : Tally
  calls : List Call

namespace Scene

/-- The start of a pass with these outcomes. -/
def start (os : List Outcome) : Scene := ⟨.start, os.map .begin⟩

/-- Further calls begin. -/
def join (c : Scene) (os : List Outcome) : Scene :=
  { c with calls := c.calls ++ os.map .begin }

/-- The call at an index makes its next step. -/
def step (t : Terms) (c : Scene) (i : Nat) : Scene :=
  match c.calls[i]? with
  | none => c
  | some k =>
    ⟨(k.delivery.step t c.tally).1,
      c.calls.set i { k with delivery := (k.delivery.step t c.tally).2.1 }⟩

/-- The calls make their steps in the order of a schedule. -/
def run (t : Terms) (c : Scene) (schedule : List Nat) : Scene :=
  schedule.foldl (step t) c

/-- A step changes the cells and one call. -/
theorem step_cases (t : Terms) (c : Scene) (i : Nat) :
    c.step t i = c ∨ ∃ before k after, c.calls = before ++ k :: after ∧
      c.step t i = ⟨(k.delivery.step t c.tally).1,
        before ++ { k with delivery := (k.delivery.step t c.tally).2.1 } :: after⟩ := by
  unfold step
  split
  · exact .inl rfl
  · rename_i k hk
    obtain ⟨hi, rfl⟩ := List.getElem?_eq_some_iff.1 hk
    refine .inr ⟨c.calls.take i, c.calls[i], c.calls.drop (i + 1), ?_, ?_⟩
    · simp
    · rw [List.set_eq_take_append_cons_drop, if_pos hi]

end Scene

/-! ## What the cells hold -/

/-- The times of the normal runs, added up run by run. -/
theorem sum_times_eq (t : Terms) (os : List Outcome) :
    (t.times os).sum = (os.map fun o => if t.normal o then o.millis else 0).sum := by
  induction os with
  | nil => rfl
  | cons o os ih =>
    rw [List.map_cons, List.sum_cons, ← ih]
    cases h : t.normal o <;> simp [Terms.times, h]

/-- The time that a call has added. -/
def Call.share (t : Terms) (k : Call) : UInt64 :=
  if k.added && t.normal k.outcome then k.outcome.millis else 0

/-- A call that has not begun has added nothing. -/
theorem sum_share_begin (t : Terms) (os : List Outcome) :
    ((os.map Call.begin).map (·.share t)).sum = 0 := by
  induction os with
  | nil => rfl
  | cons o os ih =>
    rw [List.map_cons, List.map_cons, List.sum_cons, ih]
    rfl

/-- Adding an outcome touches neither the numbers nor the mailbox. -/
@[simp]
theorem Tally.add_received (s : Tally) (c : Contribution) : (s.add c).received = s.received := by
  cases c <;> rfl

@[simp]
theorem Tally.add_sender (s : Tally) (c : Contribution) : (s.add c).sender = s.sender := by
  cases c <;> rfl

@[simp]
theorem Tally.add_mailbox (s : Tally) (c : Contribution) : (s.add c).mailbox = s.mailbox := by
  cases c <;> rfl

namespace Delivery

variable {t : Terms} {s : Tally}

/-- A number before the last expected one ends the call. -/
theorem step_added_of_lt (h : s.received + 1 < t.expected) :
    step t s .added = ({ s with received := s.received + 1 }, .ended false, []) := by
  simp only [step, if_neg (Nat.not_lt.2 h.le), if_pos h]

/-- The last expected number makes the call go on. -/
theorem step_added_of_eq (h : s.received + 1 = t.expected) :
    step t s .added =
      ({ s with received := s.received + 1 }, .completing (s.received + 1), []) := by
  simp only [step, if_neg (Nat.not_lt.2 h.le), if_neg (Nat.not_lt.2 h.ge)]

/-- Any number beyond it ends the call. -/
theorem step_added_of_gt (h : t.expected < s.received + 1) :
    step t s .added =
      ({ s with received := s.received + 1 }, .ended false, [.surplusResult t.expected]) := by
  simp only [step, if_pos h]

end Delivery

/-- The counters hold what the calls have done so far, where `n` outcomes are expected. There may be
more calls. -/
structure Tallied (t : Terms) (n : Nat) (c : Scene) : Prop where
  overtime : c.tally.overtime = c.calls.countP fun k => k.added && !t.normal k.outcome
  total : c.tally.total = (c.calls.map (·.share t)).sum
  received : c.tally.received = c.calls.countP (·.taken)
  completes : c.calls.countP (·.completes) = if c.tally.received < n then 0 else 1
  returned : c.calls.countP (·.returned true) = if c.tally.sender then 0 else 1

namespace Tallied

variable {t : Terms} {n : Nat} {c : Scene}

/-- At the start nothing is in the cells. -/
theorem start (t : Terms) (hn : 0 < n) (os : List Outcome) : Tallied t n (.start os) where
  overtime := by simp [Scene.start, Tally.start, Call.begin, Call.added, Function.comp_def]
  total := (sum_share_begin t os).symm
  received := by simp [Scene.start, Tally.start, Call.begin, Call.taken, Function.comp_def]
  completes := by
    have hpos : (Scene.start os).tally.received < n := hn
    rw [if_pos hpos]
    simp [Scene.start, Call.begin, Call.completes, Function.comp_def]
  returned := by simp [Scene.start, Tally.start, Call.begin, Call.returned, Function.comp_def]

/-- No number is left once a call has taken the last one. -/
theorem le_received (h : Tallied t n c) {k : Call} (hk : k ∈ c.calls) (hc : k.completes = true) :
    n ≤ c.tally.received := by
  by_contra hlt
  have := h.completes
  rw [if_pos (not_le.1 hlt), List.countP_eq_zero] at this
  exact this k hk hc

/-- Calls return true only after they took the last number. -/
theorem returned_le (calls : List Call) :
    calls.countP (·.returned true) ≤ calls.countP (·.completes) :=
  List.countP_mono_left fun _ _ => Call.completes_of_returned

/-- As long as numbers are left, the verdict can still be sent. -/
theorem sender_of_lt (h : Tallied t n c) (hlt : c.tally.received < n) : c.tally.sender = true := by
  have hcompletes := h.completes
  have hreturned := h.returned
  have := returned_le c.calls
  rw [if_pos hlt] at hcompletes
  cases hs : c.tally.sender with
  | true => rfl
  | false =>
    rw [hs, if_neg Bool.false_ne_true] at hreturned
    omega

/-- Once all calls are over and all numbers taken, one call has returned true. -/
theorem returned_of_left (h : Tallied t n c) (hend : ∀ k ∈ c.calls, k.left = 0)
    (hn : n ≤ c.calls.length) :
    c.calls.countP (·.returned true) = 1 ∧ c.tally.sender = false := by
  have hreceived : c.tally.received = c.calls.length := by
    rw [h.received, List.countP_eq_length]
    exact fun k hk => Call.taken_of_left (hend k hk)
  have hone : c.calls.countP (·.returned true) = 1 := by
    have hcompletes := h.completes
    rw [if_neg (by omega)] at hcompletes
    rw [← hcompletes]
    exact List.countP_congr fun k hk => by rw [Call.completes_of_left (hend k hk)]
  refine ⟨hone, ?_⟩
  cases hs : c.tally.sender with
  | false => rfl
  | true =>
    have hreturned := h.returned
    rw [hs, if_pos rfl] at hreturned
    omega

section Step

variable {before after : List Call} {k k' : Call} {s s' : Tally}

/-- One call and the cells change: what the call contributes to each of them is replaced. -/
theorem replace (h : Tallied t n ⟨s, before ++ k :: after⟩)
    (hovertime : s'.overtime + (if k.added && !t.normal k.outcome then 1 else 0) =
      s.overtime + if k'.added && !t.normal k'.outcome then 1 else 0)
    (htotal : s'.total + k.share t = s.total + k'.share t)
    (hreceived : s'.received + (if k.taken then 1 else 0) = s.received + if k'.taken then 1 else 0)
    (hcompletes : (if k'.completes then 1 else 0) + (if s.received < n then 0 else 1) =
      (if k.completes then 1 else 0) + if s'.received < n then 0 else 1)
    (hreturned : (if k'.returned true then 1 else 0) + (if s.sender then 0 else 1) =
      (if k.returned true then 1 else 0) + if s'.sender then 0 else 1) :
    Tallied t n ⟨s', before ++ k' :: after⟩ := by
  obtain ⟨h1, h2, h3, h4, h5⟩ := h
  simp only [List.countP_append, List.countP_cons, List.map_append, List.map_cons]
    at h1 h2 h3 h4 h5
  constructor
  · simp only [List.countP_append, List.countP_cons]
    omega
  · simp only [List.map_append, List.map_cons, List.sum_append, List.sum_cons] at h2 ⊢
    apply (UInt64.add_left_inj (k.share t)).1
    rw [htotal, h2]
    ac_rfl
  · simp only [List.countP_append, List.countP_cons]
    omega
  · simp only [List.countP_append, List.countP_cons]
    omega
  · simp only [List.countP_append, List.countP_cons]
    omega

/-- The call that took the last number is the only one that can send. -/
theorem sender_eq_true (h : Tallied t n ⟨s, before ++ k :: after⟩) (hc : k.completes = true)
    (hr : k.returned true = false) : s.sender = true := by
  have hone := h.completes
  have hreturned := h.returned
  simp only [List.countP_append, List.countP_cons, hc, hr, if_true] at hone hreturned
  have := returned_le before
  have := returned_le after
  cases hs : s.sender with
  | true => rfl
  | false =>
    simp only [hs, Bool.false_eq_true, if_false] at hreturned
    split at hone <;> omega

/-- The outcome of a call is added to the cells. -/
theorem add {o : Outcome} (h : Tallied t n ⟨s, before ++ ⟨o, .fresh o⟩ :: after⟩) :
    Tallied t n ⟨s.add (t.contribution o), before ++ ⟨o, .added⟩ :: after⟩ := by
  have hreceived := s.add_received (t.contribution o)
  have hsender := s.add_sender (t.contribution o)
  refine h.replace ?_ ?_ ?_ ?_ ?_
  · rw [Terms.contribution_eq]
    cases t.normal o <;> simp [Call.added, Tally.add]
  · rw [Terms.contribution_eq]
    cases hn : t.normal o <;> simp [Call.added, Call.share, Tally.add, hn]
  · rw [hreceived]
    rfl
  · rw [hreceived]
    rfl
  · rw [hsender]
    rfl

/-- A number is taken. The call that takes the last expected one goes on, and all others are
over. -/
theorem take (ht : t.expected = n) {o : Outcome}
    (h : Tallied t n ⟨s, before ++ ⟨o, .added⟩ :: after⟩) :
    Tallied t n ⟨(Delivery.step t s .added).1,
      before ++ ⟨o, (Delivery.step t s .added).2.1⟩ :: after⟩ := by
  rcases lt_trichotomy (s.received + 1) n with hmore | hlast | hsurplus
  · rw [Delivery.step_added_of_lt (ht ▸ hmore)]
    refine h.replace rfl rfl rfl ?_ rfl
    rw [if_pos (show s.received < n by omega), if_pos hmore]
    rfl
  · rw [Delivery.step_added_of_eq (ht ▸ hlast)]
    refine h.replace rfl rfl rfl ?_ rfl
    rw [if_pos (show s.received < n by omega), if_neg (Nat.not_lt.2 hlast.ge)]
    rfl
  · rw [Delivery.step_added_of_gt (ht ▸ hsurplus)]
    refine h.replace rfl rfl rfl ?_ rfl
    rw [if_neg (show ¬s.received < n by omega), if_neg (Nat.not_lt.2 hsurplus.le)]
    rfl

/-- The call that took the last number reads how many runs were late. -/
theorem count {o : Outcome} {received overtime : Nat}
    (h : Tallied t n ⟨s, before ++ ⟨o, .completing received⟩ :: after⟩) :
    Tallied t n ⟨s, before ++ ⟨o, .counted received overtime⟩ :: after⟩ :=
  h.replace rfl rfl rfl rfl rfl

/-- It reads the times and forms the verdict. -/
theorem form {o : Outcome} {received overtime : Nat} {v : Verdict}
    (h : Tallied t n ⟨s, before ++ ⟨o, .counted received overtime⟩ :: after⟩) :
    Tallied t n ⟨s, before ++ ⟨o, .judged v⟩ :: after⟩ :=
  h.replace rfl rfl rfl rfl rfl

/-- It sends the verdict. -/
theorem send {o : Outcome} {v : Verdict} (h : Tallied t n ⟨s, before ++ ⟨o, .judged v⟩ :: after⟩)
    (hmailbox : s.mailbox = .awaited) :
    (s.send v).1 = { s with sender := false, mailbox := .holds v } ∧
      Tallied t n ⟨(s.send v).1, before ++ ⟨o, .ended true⟩ :: after⟩ := by
  have hsender : s.sender = true := h.sender_eq_true rfl rfl
  have hsend : (s.send v).1 = { s with sender := false, mailbox := .holds v } := by
    simp only [Tally.send, hsender, hmailbox, if_true]
  refine ⟨hsend, ?_⟩
  rw [hsend]
  refine h.replace rfl rfl rfl rfl ?_
  rw [if_pos hsender]
  rfl

end Step

end Tallied

/-- What a call has read agrees with the outcomes of all calls. -/
def Call.agrees (t : Terms) (os : List Outcome) (k : Call) : Prop :=
  match k.delivery with
  | .fresh o => o = k.outcome
  | .completing received => received = os.length
  | .counted received overtime => received = os.length ∧ overtime = t.late os
  | .judged v => v = t.judge os
  | _ => True

/-- The cells hold what the calls have done so far; `os` are the outcomes of all calls. -/
structure Coherent (t : Terms) (os : List Outcome) (c : Scene) : Prop where
  outcomes : c.calls.map (·.outcome) = os
  agrees : ∀ k ∈ c.calls, k.agrees t os
  overtime : c.tally.overtime = c.calls.countP fun k => k.added && !t.normal k.outcome
  total : c.tally.total = (c.calls.map (·.share t)).sum
  received : c.tally.received = c.calls.countP (·.taken)
  completes : c.calls.countP (·.completes) = if c.tally.received < os.length then 0 else 1
  returned : c.calls.countP (·.returned true) = if c.tally.sender then 0 else 1
  mailbox : c.tally.mailbox = if c.tally.sender then .awaited else .holds (t.judge os)

namespace Coherent

variable {t : Terms} {os : List Outcome} {c : Scene}

theorem length_calls (h : Coherent t os c) : c.calls.length = os.length := by
  rw [← h.outcomes, List.length_map]

/-- The counters hold what the calls have done. -/
theorem tallied (h : Coherent t os c) : Tallied t os.length c :=
  ⟨h.overtime, h.total, h.received, h.completes, h.returned⟩

/-- Once all numbers are taken, all outcomes are in the cells. -/
theorem full (h : Coherent t os c) (hr : os.length ≤ c.tally.received) :
    c.tally.overtime = t.late os ∧ c.tally.total = (t.times os).sum := by
  have htaken : ∀ k ∈ c.calls, k.added = true := by
    rw [h.received, ← h.length_calls] at hr
    intro k hk
    exact Call.added_of_taken (List.countP_eq_length.1 (le_antisymm List.countP_le_length hr) k hk)
  constructor
  · rw [h.overtime, ← h.outcomes, Terms.late, List.countP_map]
    exact List.countP_congr fun k hk => by simp [htaken k hk]
  · rw [h.total, ← h.outcomes, sum_times_eq, List.map_map]
    refine congrArg List.sum (List.map_congr_left fun k hk => ?_)
    simp [Call.share, htaken k hk]

/-- At the start nothing is in the cells. -/
theorem start (h : os ≠ []) : Coherent t os (.start os) where
  outcomes := by simp [Scene.start, Function.comp_def, Call.begin]
  agrees := by
    intro k hk
    obtain ⟨o, -, rfl⟩ := List.mem_map.1 hk
    rfl
  overtime := (Tallied.start t (List.length_pos_iff.2 h) os).overtime
  total := (Tallied.start t (List.length_pos_iff.2 h) os).total
  received := (Tallied.start t (List.length_pos_iff.2 h) os).received
  completes := (Tallied.start t (List.length_pos_iff.2 h) os).completes
  returned := (Tallied.start t (List.length_pos_iff.2 h) os).returned
  mailbox := rfl

section Step

variable {before after : List Call} {k k' : Call} {s s' : Tally}

/-- One call and the cells change. -/
theorem replace (h : Coherent t os ⟨s, before ++ k :: after⟩) (houtcome : k'.outcome = k.outcome)
    (hagrees : k'.agrees t os) (htallied : Tallied t os.length ⟨s', before ++ k' :: after⟩)
    (hmailbox : s'.mailbox = if s'.sender then .awaited else .holds (t.judge os)) :
    Coherent t os ⟨s', before ++ k' :: after⟩ := by
  obtain ⟨houtcomes, hall, -⟩ := h
  refine ⟨?_, ?_, htallied.overtime, htallied.total, htallied.received, htallied.completes,
    htallied.returned, hmailbox⟩
  · rw [← houtcomes]
    simp only [List.map_append, List.map_cons, houtcome]
  · simp only [List.forall_mem_append, List.forall_mem_cons] at hall ⊢
    exact ⟨hall.1, hagrees, hall.2.2⟩

/-- The outcome of a call is added to the cells. -/
theorem add {o : Outcome} (h : Coherent t os ⟨s, before ++ ⟨o, .fresh o⟩ :: after⟩) :
    Coherent t os ⟨s.add (t.contribution o), before ++ ⟨o, .added⟩ :: after⟩ := by
  refine h.replace rfl trivial h.tallied.add ?_
  rw [Tally.add_sender, Tally.add_mailbox]
  exact h.mailbox

/-- A number is taken, and the call goes on if it is the last one. -/
theorem take (ht : t.expected = os.length) {o : Outcome}
    (h : Coherent t os ⟨s, before ++ ⟨o, .added⟩ :: after⟩) :
    Coherent t os ⟨(Delivery.step t s .added).1,
      before ++ ⟨o, (Delivery.step t s .added).2.1⟩ :: after⟩ := by
  have htallied := h.tallied.take ht
  rcases lt_trichotomy (s.received + 1) os.length with hmore | hlast | hsurplus
  · rw [Delivery.step_added_of_lt (ht ▸ hmore)] at htallied ⊢
    exact h.replace rfl trivial htallied h.mailbox
  · rw [Delivery.step_added_of_eq (ht ▸ hlast)] at htallied ⊢
    exact h.replace rfl hlast htallied h.mailbox
  · rw [Delivery.step_added_of_gt (ht ▸ hsurplus)] at htallied ⊢
    exact h.replace rfl trivial htallied h.mailbox

/-- The call that took the last number reads how many runs were late. -/
theorem count {o : Outcome} {received : Nat}
    (h : Coherent t os ⟨s, before ++ ⟨o, .completing received⟩ :: after⟩) :
    Coherent t os ⟨s, before ++ ⟨o, .counted received (min s.overtime received)⟩ :: after⟩ := by
  have hk : ⟨o, .completing received⟩ ∈ before ++ ⟨o, .completing received⟩ :: after :=
    List.mem_append_cons_self
  have hreceived : received = os.length := h.agrees _ hk
  have hovertime : s.overtime = t.late os := (h.full (h.tallied.le_received hk rfl)).1
  have hlate : t.late os ≤ os.length := List.countP_le_length
  have hread : min s.overtime received = t.late os := by
    rw [hovertime, hreceived, min_eq_left hlate]
  exact h.replace rfl ⟨hreceived, hread⟩ h.tallied.count h.mailbox

/-- It reads the times and forms the verdict on all outcomes. -/
theorem form {o : Outcome} {received overtime : Nat}
    (h : Coherent t os ⟨s, before ++ ⟨o, .counted received overtime⟩ :: after⟩) :
    Coherent t os ⟨s, before ++ ⟨o, .judged (t.verdict received overtime s.total)⟩ :: after⟩ := by
  have hk : ⟨o, .counted received overtime⟩ ∈
      before ++ ⟨o, .counted received overtime⟩ :: after := List.mem_append_cons_self
  obtain ⟨hreceived, hovertime⟩ := h.agrees _ hk
  have htotal : s.total = (t.times os).sum := (h.full (h.tallied.le_received hk rfl)).2
  have hjudge : t.verdict received overtime s.total = t.judge os := by
    rw [htotal, hreceived, hovertime]
    rfl
  exact h.replace rfl hjudge h.tallied.form h.mailbox

/-- It sends the verdict. -/
theorem send {o : Outcome} {v : Verdict}
    (h : Coherent t os ⟨s, before ++ ⟨o, .judged v⟩ :: after⟩) :
    Coherent t os ⟨(s.send v).1, before ++ ⟨o, .ended true⟩ :: after⟩ := by
  have hv : v = t.judge os := h.agrees _ List.mem_append_cons_self
  have hmailbox : s.mailbox = .awaited := by
    have := h.mailbox
    rwa [if_pos (h.tallied.sender_eq_true rfl rfl)] at this
  obtain ⟨hsend, htallied⟩ := h.tallied.send hmailbox
  refine h.replace rfl trivial htallied ?_
  rw [hsend]
  exact congrArg Mailbox.holds hv

end Step

/-- A step keeps what the cells hold. -/
theorem step (ht : t.expected = os.length) (h : Coherent t os c) (i : Nat) :
    Coherent t os (c.step t i) := by
  rcases c.step_cases t i with hsame | ⟨before, k, after, hcalls, hstep⟩
  · rwa [hsame]
  obtain ⟨s, calls⟩ := c
  obtain ⟨o, d⟩ := k
  simp only at hcalls hstep
  subst hcalls
  rw [hstep]
  cases d with
  | fresh o' =>
    obtain rfl : o' = o := h.agrees _ List.mem_append_cons_self
    exact h.add
  | added => exact h.take ht
  | completing received => exact h.count
  | counted received overtime => exact h.form
  | judged v => exact h.send
  | ended completed => exact h

/-- Any interleaving keeps what the cells hold. -/
theorem run (ht : t.expected = os.length) (h : Coherent t os c) (schedule : List Nat) :
    Coherent t os (c.run t schedule) := by
  induction schedule generalizing c with
  | nil => exact h
  | cons i schedule ih => exact ih (h.step ht i)

/-- As long as the verdict can be sent, it is awaited and no call has returned true. -/
theorem mailbox_cases (h : Coherent t os c) :
    (c.tally.sender = true ∧ c.tally.mailbox = .awaited ∧ c.calls.countP (·.returned true) = 0) ∨
      (c.tally.sender = false ∧ c.tally.mailbox = .holds (t.judge os) ∧
        c.calls.countP (·.returned true) = 1) := by
  have hmailbox := h.mailbox
  have hreturned := h.returned
  cases hs : c.tally.sender with
  | true =>
    rw [hs] at hmailbox hreturned
    exact .inl ⟨rfl, hmailbox, hreturned⟩
  | false =>
    rw [hs] at hmailbox hreturned
    exact .inr ⟨rfl, hmailbox, hreturned⟩

/-- No call returns true before the last number is taken. -/
theorem awaited_of_lt (h : Coherent t os c) (hlt : c.tally.received < os.length) :
    c.tally.mailbox = .awaited ∧ c.calls.countP (·.returned true) = 0 := by
  rcases h.mailbox_cases with ⟨-, h⟩ | ⟨hsender, -⟩
  · exact h
  · rw [h.tallied.sender_of_lt hlt] at hsender
    cases hsender

/-- Once all calls are over, one of them has returned true, and the verdict is sent. -/
theorem all_ended (h : Coherent t os c) (hend : ∀ k ∈ c.calls, k.left = 0) :
    c.calls.countP (·.returned true) = 1 ∧ c.tally.mailbox = .holds (t.judge os) := by
  obtain ⟨hone, hsender⟩ := h.tallied.returned_of_left hend h.length_calls.ge
  rcases h.mailbox_cases with ⟨hnot, -⟩ | ⟨-, hmailbox, -⟩
  · rw [hnot] at hsender
    cases hsender
  · exact ⟨hone, hmailbox⟩

end Coherent

/-! ## Progress -/

namespace Scene

variable {t : Terms} {c : Scene}

/-- How many steps are left to the call at an index. -/
def leftAt (c : Scene) (i : Nat) : Nat :=
  (c.calls[i]?.map (·.left)).getD 0

/-- A step leaves one step less to the call that makes it, and changes no other call. -/
theorem leftAt_step (i j : Nat) :
    (c.step t i).leftAt j ≤ c.leftAt j - if i = j then 1 else 0 := by
  unfold step
  split
  · rename_i hnone
    split
    · rename_i hij
      rw [← hij, leftAt, hnone]
      exact Nat.le_refl _
    · exact Nat.le_refl _
  · rename_i k hk
    obtain ⟨hi, -⟩ := List.getElem?_eq_some_iff.1 hk
    simp only [leftAt, List.getElem?_set, hi, if_true]
    split
    · rename_i hij
      subst hij
      rw [hk]
      exact k.left_step t c.tally
    · exact Nat.le_refl _

/-- So many steps of a call bring it so much closer to its end, whatever comes between them. -/
theorem leftAt_run (schedule : List Nat) (j : Nat) :
    (c.run t schedule).leftAt j ≤ c.leftAt j - schedule.count j := by
  induction schedule generalizing c with
  | nil => exact Nat.le_refl _
  | cons i schedule ih =>
    have hstep := leftAt_step (t := t) (c := c) i j
    have hrest := ih (c := c.step t i)
    rw [List.count_cons]
    simp only [beq_iff_eq]
    show ((c.step t i).run t schedule).leftAt j ≤ _
    omega

theorem leftAt_le (c : Scene) (i : Nat) : c.leftAt i ≤ Delivery.length := by
  unfold leftAt
  cases c.calls[i]? with
  | none => exact Nat.zero_le _
  | some k => exact Call.left_le k

/-- A call that makes as many steps as a delivery takes is over. -/
theorem left_eq_zero {schedule : List Nat} {i : Nat} {k : Call}
    (hk : (c.run t schedule).calls[i]? = some k) (h : Delivery.length ≤ schedule.count i) :
    k.left = 0 := by
  have hrun := leftAt_run (t := t) (c := c) schedule i
  have hle := c.leftAt_le i
  have hleft : (c.run t schedule).leftAt i = k.left := by
    rw [leftAt, hk]
    rfl
  omega

end Scene

/-! ## After the verdict -/

/-- The verdict was sent, and no call from the index `n` on can send another one. -/
structure Closed (t : Terms) (v : Verdict) (n : Nat) (c : Scene) : Prop where
  received : t.expected ≤ c.tally.received
  sender : c.tally.sender = false
  mailbox : c.tally.mailbox = .holds v
  late : ∀ i k, n ≤ i → c.calls[i]? = some k → k.completes = false

namespace Closed

variable {t : Terms} {v : Verdict} {n : Nat} {c : Scene}

/-- Without a sender no step touches the mailbox, and no number is given back. -/
theorem cells_step (hs : c.tally.sender = false) (d : Delivery) :
    (d.step t c.tally).1.sender = false ∧ (d.step t c.tally).1.mailbox = c.tally.mailbox ∧
      c.tally.received ≤ (d.step t c.tally).1.received := by
  cases d with
  | fresh o =>
    simp only [Delivery.step]
    cases t.contribution o <;> exact ⟨hs, rfl, Nat.le_refl _⟩
  | added =>
    simp only [Delivery.step]
    split
    · exact ⟨hs, rfl, Nat.le_succ _⟩
    · split <;> exact ⟨hs, rfl, Nat.le_succ _⟩
  | judged v =>
    have hsend : c.tally.send v = (c.tally, []) := by
      rw [Tally.send, hs]
      rfl
    have hnext : (Delivery.step t c.tally (.judged v)).1 = c.tally := congrArg Prod.fst hsend
    rw [hnext]
    exact ⟨hs, rfl, Nat.le_refl _⟩
  | completing _ | counted _ _ | ended _ => exact ⟨hs, rfl, Nat.le_refl _⟩

/-- Once all numbers are taken, no further call takes the last one. -/
theorem completes_step (hr : t.expected ≤ c.tally.received) {k : Call} (hk : k.completes = false) :
    { k with delivery := (k.delivery.step t c.tally).2.1 }.completes = false := by
  obtain ⟨o, d⟩ := k
  cases d with
  | fresh o' => rfl
  | added =>
    simp only [Delivery.step, if_pos (Nat.lt_succ_of_le hr)]
    rfl
  | completing _ | counted _ _ | judged _ => cases hk
  | ended completed => exact hk

theorem step (h : Closed t v n c) (i : Nat) : Closed t v n (c.step t i) := by
  unfold Scene.step
  split
  · exact h
  · rename_i k hk
    obtain ⟨hi, -⟩ := List.getElem?_eq_some_iff.1 hk
    obtain ⟨hsender, hmailbox, hreceived⟩ := cells_step (t := t) h.sender k.delivery
    refine ⟨h.received.trans hreceived, hsender, hmailbox.trans h.mailbox, fun j k' hj hk' => ?_⟩
    simp only [List.getElem?_set, hi, if_true] at hk'
    split at hk'
    · rename_i hij
      subst hij
      rw [Option.some.injEq] at hk'
      rw [← hk']
      exact completes_step h.received (h.late i k hj hk)
    · exact h.late j k' hj hk'

theorem run (h : Closed t v n c) (schedule : List Nat) : Closed t v n (c.run t schedule) := by
  induction schedule generalizing c with
  | nil => exact h
  | cons i schedule ih => exact ih (h.step i)

/-- No call from the index on returns true. -/
theorem returned_eq_false (h : Closed t v n c) {i : Nat} {k : Call} (hi : n ≤ i)
    (hk : c.calls[i]? = some k) : k.returned true = false := by
  cases hreturned : k.returned true with
  | false => rfl
  | true =>
    have := h.late i k hi hk
    rw [Call.completes_of_returned hreturned] at this
    cases this

end Closed

/-- Further calls find the verdict sent. -/
theorem Tallied.closed {t : Terms} {n : Nat} {c : Scene} {v : Verdict} (ht : t.expected = n)
    (h : Tallied t n c) (hs : c.tally.sender = false) (hv : c.tally.mailbox = .holds v)
    (late : List Outcome) : Closed t v c.calls.length (c.join late) := by
  have hreceived : n ≤ c.tally.received := by
    by_contra hlt
    rw [h.sender_of_lt (not_le.1 hlt)] at hs
    cases hs
  refine ⟨ht ▸ hreceived, hs, hv, fun i k hi hk => ?_⟩
  simp only [Scene.join] at hk
  rw [List.getElem?_append_right hi, List.getElem?_map] at hk
  obtain ⟨o, -, rfl⟩ := Option.map_eq_some_iff.1 hk
  rfl

theorem Coherent.closed {t : Terms} {os : List Outcome} {c : Scene} {v : Verdict}
    (ht : t.expected = os.length) (h : Coherent t os c) (hv : c.tally.mailbox = .holds v)
    (late : List Outcome) : Closed t v os.length (c.join late) := by
  rcases h.mailbox_cases with ⟨-, hmailbox, -⟩ | ⟨hsender, -, -⟩
  · rw [hv] at hmailbox
    cases hmailbox
  · exact h.length_calls ▸ h.tallied.closed ht hsender hv late

/-! ## What comes of every schedule -/

/-- The verdict on these outcomes, field by field. -/
structure Verdict.IsOn (v : Verdict) (t : Terms) (os : List Outcome) : Prop where
  received : v.received = os.length
  overtime : v.overtime = t.late os
  ratio : v.ratio = Float.ofNat (os.length - t.late os) / Float.ofNat os.length
  ratio_mem : os.length < 2 ^ 64 → 0.0 ≤ v.ratio ∧ v.ratio ≤ 1.0
  success : v.success = true ↔ t.lowestRatio ≤ v.ratio
  average : ((t.times os).map (·.toNat)).sum < 2 ^ 64 → v.average =
    if os.length = t.late os then 0.0
    else Float.ofNat ((t.times os).map (·.toNat)).sum / Float.ofNat (os.length - t.late os)

theorem Terms.judge_isOn (t : Terms) {os : List Outcome} (hos : os ≠ []) :
    (t.judge os).IsOn t os := by
  have hlength := Terms.length_times_add_late (t := t) os
  have hnormals : (t.times os).length = os.length - t.late os := by omega
  refine ⟨rfl, rfl, ?_, Terms.judge_ratio_mem hos, Terms.judge_success os, fun hsum => ?_⟩
  · rw [Terms.judge_ratio hos, hnormals]
  · have hnone : t.times os = [] ↔ os.length = t.late os := by
      rw [← List.length_eq_zero_iff]
      omega
    rw [Terms.judge_average hsum, hnormals]
    simp only [hnone]

/-- For any number of outcomes that are delivered at once, and any interleaving of the steps: no
verdict is sent before the last number is taken; at most one call returns true, and it is the one
that has sent the verdict; once every call has made its steps, all are over and one has returned
true; and calls that begin later return false and send nothing. The verdict is that on the outcomes
in any order. -/
theorem Scene.exactly_once (threshold lowestRatio : Float) (os : List Outcome) (hos : os ≠ [])
    (schedule : List Nat) :
    let t : Terms := ⟨threshold, os.length, lowestRatio⟩
    let c := (Scene.start os).run t schedule
    (c.tally.received < os.length →
      c.tally.mailbox = .awaited ∧ c.calls.countP (·.returned true) = 0) ∧
    (c.tally.mailbox = .awaited ∧ c.calls.countP (·.returned true) = 0 ∨
      c.tally.mailbox = .holds (t.judge os) ∧ c.calls.countP (·.returned true) = 1) ∧
    ((∀ i < os.length, Delivery.length ≤ schedule.count i) →
      (∀ k ∈ c.calls, k.returned true = true ∨ k.returned false = true) ∧
        c.calls.countP (·.returned true) = 1 ∧ c.tally.mailbox = .holds (t.judge os)) ∧
    (c.tally.mailbox = .holds (t.judge os) → ∀ (late : List Outcome) (more : List Nat),
      let later := (c.join late).run t more
      later.tally.mailbox = .holds (t.judge os) ∧
        ∀ i k, os.length ≤ i → later.calls[i]? = some k → k.returned true = false ∧
          (Delivery.length ≤ more.count i → k.returned false = true)) ∧
    (t.judge os).IsOn t os ∧ ∀ os', os'.Perm os → t.judge os' = t.judge os := by
  intro t c
  have hc : Coherent t os c := (Coherent.start hos).run rfl schedule
  refine ⟨hc.awaited_of_lt, ?_, ?_, ?_, t.judge_isOn hos, fun os' h => Terms.judge_perm h⟩
  · rcases hc.mailbox_cases with ⟨-, h⟩ | ⟨-, h⟩
    · exact .inl h
    · exact .inr h
  · intro hall
    have hend : ∀ k ∈ c.calls, k.left = 0 := by
      intro k hk
      obtain ⟨i, hi, hget⟩ := List.getElem_of_mem hk
      have hlen := hc.length_calls
      exact Scene.left_eq_zero (List.getElem?_eq_some_iff.2 ⟨hi, hget⟩) (hall i (by omega))
    exact ⟨fun k hk => Call.returned_of_left (hend k hk), hc.all_ended hend⟩
  · intro hv late more later
    have hclosed : Closed t (t.judge os) os.length later := (hc.closed rfl hv late).run more
    refine ⟨hclosed.mailbox, ?_⟩
    intro i k hi hk
    have hfalse := hclosed.returned_eq_false hi hk
    refine ⟨hfalse, ?_⟩
    intro hcount
    rcases Call.returned_of_left (Scene.left_eq_zero hk hcount) with h | h
    · rw [h] at hfalse
      cases hfalse
    · exact h

/-- Two calls that take turns; the one that failed takes the last number. -/
theorem Scene.exactly_once_two :
    ((Scene.start [⟨.success, 5⟩, ⟨.error, 3⟩]).run ⟨100.0, 2, 0.5⟩
      [0, 1, 1, 0, 0, 1, 1, 1, 0, 0]).tally.mailbox =
      .holds (Terms.judge ⟨100.0, 2, 0.5⟩ [⟨.success, 5⟩, ⟨.error, 3⟩]) := by
  have hos : ([⟨.success, 5⟩, ⟨.error, 3⟩] : List Outcome) ≠ [] := List.cons_ne_nil _ _
  have h := Scene.exactly_once 100.0 0.5 [⟨.success, 5⟩, ⟨.error, 3⟩] hos
    [0, 1, 1, 0, 0, 1, 1, 1, 0, 0]
  obtain ⟨-, -, hsent⟩ := h.2.2.1 (by decide)
  exact hsent

end LoadProbe.Pass
