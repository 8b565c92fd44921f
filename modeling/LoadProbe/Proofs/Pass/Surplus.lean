import LoadProbe.Proofs.Pass.Interleaving

/-!
# Deliveries beyond the expected ones

More calls may deliver outcomes than the pass expects. The verdict is sent once all the same, by the
call that takes the last expected number, and nothing replaces it. But a call adds its outcome
before it takes a number, so the cells that this call reads may also hold outcomes that have no
number yet or a surplus one. The verdict is formed from what is in the cells at two moments of the
past (`Verdict.ReadAt`), and only the outcomes that have not been added by then never touch it
(`Scene.judged_with_surplus`). A surplus call that is half done shows in the verdict
(`Scene.surplus_overtime`).
-/

namespace LoadProbe.Pass

/-! ## How far the calls have come -/

namespace Call

/-- What is in the cells stays there. -/
theorem added_step {k : Call} (h : k.added = true) (t : Terms) (s : Tally) :
    { k with delivery := (k.delivery.step t s).2.1 }.added = true := by
  obtain ⟨o, d⟩ := k
  cases d with
  | fresh o' => exact absurd h Bool.false_ne_true
  | added =>
    simp only [Delivery.step]
    split
    · rfl
    · split <;> rfl
  | _ => rfl

/-- A number that was taken stays taken. -/
theorem taken_step {k : Call} (h : k.taken = true) (t : Terms) (s : Tally) :
    { k with delivery := (k.delivery.step t s).2.1 }.taken = true := by
  obtain ⟨o, d⟩ := k
  cases d with
  | fresh o' | added => exact absurd h Bool.false_ne_true
  | _ => rfl

end Call

namespace Scene

/-- The outcomes of the calls that have come that far. -/
def reached (far : Call → Bool) (c : Scene) : List Outcome :=
  (c.calls.filter far).map (·.outcome)

/-- The outcomes that are in the cells. -/
def brought (c : Scene) : List Outcome := c.reached Call.added

/-- The outcomes whose calls have taken a number. -/
def numbered (c : Scene) : List Outcome := c.reached Call.taken

/-- No outcome is numbered before it is in the cells. -/
theorem numbered_sublist (c : Scene) : c.numbered.Sublist c.brought :=
  (List.monotone_filter_right c.calls fun _ => Call.added_of_taken).map _

theorem brought_sublist (c : Scene) : c.brought.Sublist (c.calls.map (·.outcome)) :=
  List.filter_sublist.map _

variable {t : Terms} {c : Scene}

/-- No step takes a call back. -/
theorem reached_step {far : Call → Bool}
    (hstep : ∀ (k : Call) (s : Tally), far k = true →
      far { k with delivery := (k.delivery.step t s).2.1 } = true) (i : Nat) :
    (c.reached far).Sublist ((c.step t i).reached far) := by
  rcases c.step_cases t i with hsame | ⟨before, k, after, hcalls, hnext⟩
  · rw [hsame]
  · simp only [reached, hcalls, hnext, List.filter_append, List.filter_cons, List.map_append]
    refine (List.append_sublist_append_left _).2 ?_
    cases hk : far k with
    | true =>
      simp only [hstep k _ hk, if_true, List.map_cons]
      exact List.Sublist.refl _
    | false =>
      rw [if_neg Bool.false_ne_true]
      split
      · exact List.sublist_cons_self _ _
      · exact List.Sublist.refl _

theorem reached_run {far : Call → Bool}
    (hstep : ∀ (k : Call) (s : Tally), far k = true →
      far { k with delivery := (k.delivery.step t s).2.1 } = true) (schedule : List Nat) :
    (c.reached far).Sublist ((c.run t schedule).reached far) := by
  induction schedule generalizing c with
  | nil => exact List.Sublist.refl _
  | cons i schedule ih => exact (reached_step hstep i).trans ih

/-- What is in the cells at a moment is there at every later one. -/
theorem brought_run (schedule : List Nat) : c.brought.Sublist (c.run t schedule).brought :=
  reached_run (fun _ s h => Call.added_step h t s) schedule

theorem numbered_run (schedule : List Nat) : c.numbered.Sublist (c.run t schedule).numbered :=
  reached_run (fun _ s h => Call.taken_step h t s) schedule

/-- At most one number is taken in a step. -/
theorem received_step (i : Nat) : (c.step t i).tally.received ≤ c.tally.received + 1 := by
  rcases c.step_cases t i with hsame | ⟨before, k, after, -, hnext⟩
  · rw [hsame]
    exact Nat.le_succ _
  · rw [hnext]
    cases k.delivery with
    | fresh o => exact (Tally.add_received _ _).trans_le (Nat.le_succ _)
    | added =>
      simp only [Delivery.step]
      split
      · exact Nat.le_refl _
      · split <;> exact Nat.le_refl _
    | judged v =>
      have hsame : (c.tally.send v).1.received = c.tally.received := by
        unfold Tally.send
        split
        · split <;> rfl
        · rfl
      exact hsame.trans_le (Nat.le_succ _)
    | completing _ | counted _ _ | ended _ => exact Nat.le_succ _

theorem run_append (first second : List Nat) :
    c.run t (first ++ second) = (c.run t first).run t second :=
  List.foldl_append

theorem run_concat (schedule : List Nat) (i : Nat) :
    c.run t (schedule ++ [i]) = (c.run t schedule).step t i :=
  run_append schedule [i]

/-- Each number is taken at some moment. -/
theorem exists_taken {n : Nat} (schedule : List Nat) (hfrom : c.tally.received ≤ n)
    (hto : n ≤ (c.run t schedule).tally.received) :
    ∃ moment, moment <+: schedule ∧ (c.run t moment).tally.received = n := by
  induction schedule using List.reverseRecOn with
  | nil => exact ⟨[], List.prefix_refl _, le_antisymm hfrom hto⟩
  | append_singleton schedule i ih =>
    rcases Nat.lt_or_ge (c.run t schedule).tally.received n with hlt | hge
    · refine ⟨schedule ++ [i], List.prefix_refl _, le_antisymm ?_ hto⟩
      rw [run_concat]
      exact (received_step i).trans hlt
    · obtain ⟨moment, hmoment, hreceived⟩ := ih hge
      exact ⟨moment, hmoment.trans (List.prefix_append _ _), hreceived⟩

end Scene

/-! ## What the cells hold -/

namespace Tallied

variable {t : Terms} {n : Nat} {c : Scene}

/-- The overtime runs are those among the outcomes in the cells. -/
theorem overtime_eq (h : Tallied t n c) : c.tally.overtime = t.late c.brought := by
  rw [h.overtime, Terms.late, Scene.brought, Scene.reached, List.countP_map, List.countP_filter]
  exact List.countP_congr fun k _ => by simp [and_comm]

/-- The total is the time of the normal runs among them. -/
theorem total_eq (h : Tallied t n c) : c.tally.total = (t.times c.brought).sum := by
  rw [h.total, Scene.brought, Scene.reached, sum_times_eq, List.map_map]
  induction c.calls with
  | nil => rfl
  | cons k calls ih =>
    rw [List.map_cons, List.sum_cons, ih]
    cases hk : k.added <;> simp [Call.share, hk]

theorem received_eq (h : Tallied t n c) : c.tally.received = c.numbered.length := by
  rw [h.received, Scene.numbered, Scene.reached, List.length_map, List.countP_eq_length_filter]

end Tallied

/-! ## What is read from them -/

/-- A pass with these outcomes at the moment when this part of the schedule is over. -/
def Scene.moment (t : Terms) (os : List Outcome) (past : List Nat) : Scene :=
  (start os).run t past

/-- The verdict that is formed by reading the overtime runs at one moment and the times at
another. -/
def Terms.read (t : Terms) (os : List Outcome) (counted added : List Nat) : Verdict :=
  t.verdict t.expected (min (t.late (Scene.moment t os counted).brought) t.expected)
    (t.times (Scene.moment t os added).brought).sum

/-- A moment of the past at which all expected numbers were taken. -/
def Full (t : Terms) (os : List Outcome) (past moment : List Nat) : Prop :=
  moment <+: past ∧ t.expected ≤ (Scene.moment t os moment).tally.received

/-- The verdict was formed in the past, after all expected numbers were taken. -/
def Verdict.Formed (t : Terms) (os : List Outcome) (past : List Nat) (v : Verdict) : Prop :=
  ∃ counted added, Full t os added counted ∧ added <+: past ∧ v = t.read os counted added

/-- What a call has read goes back to the past. -/
def Call.recalls (t : Terms) (os : List Outcome) (past : List Nat) (k : Call) : Prop :=
  match k.delivery with
  | .fresh o => o = k.outcome
  | .completing received => received = t.expected
  | .counted received overtime => received = t.expected ∧ ∃ counted, Full t os past counted ∧
      overtime = min (t.late (Scene.moment t os counted).brought) t.expected
  | .judged v => v.Formed t os past
  | _ => True

/-- The verdict is awaited, or it was formed in the past and sent. -/
def Tally.Tells (t : Terms) (os : List Outcome) (past : List Nat) (s : Tally) : Prop :=
  s.sender = true ∧ s.mailbox = .awaited ∨
    s.sender = false ∧ ∃ v, s.mailbox = .holds v ∧ v.Formed t os past

section Past

variable {t : Terms} {os : List Outcome} {past past' : List Nat}

theorem Full.mono {moment : List Nat} (h : Full t os past moment) (hle : past <+: past') :
    Full t os past' moment :=
  ⟨h.1.trans hle, h.2⟩

theorem Verdict.Formed.mono {v : Verdict} (h : v.Formed t os past) (hle : past <+: past') :
    v.Formed t os past' := by
  obtain ⟨counted, added, hfull, hadded, hv⟩ := h
  exact ⟨counted, added, hfull, hadded.trans hle, hv⟩

theorem Call.recalls.mono {k : Call} (h : k.recalls t os past) (hle : past <+: past') :
    k.recalls t os past' := by
  obtain ⟨o, d⟩ := k
  cases d with
  | counted received overtime =>
    obtain ⟨hreceived, counted, hfull, hovertime⟩ := h
    exact ⟨hreceived, counted, hfull.mono hle, hovertime⟩
  | judged v => exact Verdict.Formed.mono h hle
  | _ => exact h

theorem Tally.Tells.mono {s : Tally} (h : s.Tells t os past) (hle : past <+: past') :
    s.Tells t os past' := by
  rcases h with h | ⟨hsender, v, hmailbox, hv⟩
  · exact .inl h
  · exact .inr ⟨hsender, v, hmailbox, hv.mono hle⟩

end Past

/-- The cells hold what the calls have done so far, and what the calls have read goes back to the
past; `os` are the outcomes of all calls, which may be more than the expected ones. -/
structure Crowded (t : Terms) (os : List Outcome) (past : List Nat) (c : Scene) : Prop where
  outcomes : c.calls.map (·.outcome) = os
  recalls : ∀ k ∈ c.calls, k.recalls t os past
  tallied : Tallied t t.expected c
  tells : c.tally.Tells t os past

namespace Crowded

variable {t : Terms} {os : List Outcome} {past past' : List Nat} {c : Scene}

theorem start (ht : 0 < t.expected) (os : List Outcome) : Crowded t os [] (.start os) where
  outcomes := by simp [Scene.start, Function.comp_def, Call.begin]
  recalls := by
    intro k hk
    obtain ⟨o, -, rfl⟩ := List.mem_map.1 hk
    rfl
  tallied := .start t ht os
  tells := .inl ⟨rfl, rfl⟩

theorem mono (h : Crowded t os past c) (hle : past <+: past') : Crowded t os past' c :=
  ⟨h.outcomes, fun k hk => (h.recalls k hk).mono hle, h.tallied, h.tells.mono hle⟩

section Step

variable {before after : List Call} {k k' : Call} {s s' : Tally}

/-- One call and the cells change. -/
theorem replace (h : Crowded t os past ⟨s, before ++ k :: after⟩)
    (houtcome : k'.outcome = k.outcome) (hrecalls : k'.recalls t os past)
    (htallied : Tallied t t.expected ⟨s', before ++ k' :: after⟩) (htells : s'.Tells t os past) :
    Crowded t os past ⟨s', before ++ k' :: after⟩ := by
  obtain ⟨houtcomes, hall, -, -⟩ := h
  refine ⟨?_, ?_, htallied, htells⟩
  · rw [← houtcomes]
    simp only [List.map_append, List.map_cons, houtcome]
  · simp only [List.forall_mem_append, List.forall_mem_cons] at hall ⊢
    exact ⟨hall.1, hrecalls, hall.2.2⟩

/-- The outcome of a call is added to the cells. -/
theorem add {o : Outcome} (h : Crowded t os past ⟨s, before ++ ⟨o, .fresh o⟩ :: after⟩) :
    Crowded t os past ⟨s.add (t.contribution o), before ++ ⟨o, .added⟩ :: after⟩ := by
  refine h.replace rfl trivial h.tallied.add ?_
  rw [Tally.Tells, Tally.add_sender, Tally.add_mailbox]
  exact h.tells

/-- A number is taken. Only the call that takes the last expected one goes on. -/
theorem take {o : Outcome} (h : Crowded t os past ⟨s, before ++ ⟨o, .added⟩ :: after⟩) :
    Crowded t os past ⟨(Delivery.step t s .added).1,
      before ++ ⟨o, (Delivery.step t s .added).2.1⟩ :: after⟩ := by
  have htallied := h.tallied.take rfl
  rcases lt_trichotomy (s.received + 1) t.expected with hmore | hlast | hsurplus
  · rw [Delivery.step_added_of_lt hmore] at htallied ⊢
    exact h.replace rfl trivial htallied h.tells
  · rw [Delivery.step_added_of_eq hlast] at htallied ⊢
    exact h.replace rfl hlast htallied h.tells
  · rw [Delivery.step_added_of_gt hsurplus] at htallied ⊢
    exact h.replace rfl trivial htallied h.tells

/-- The call that took the last expected number reads how many runs were late. -/
theorem count {o : Outcome} {received : Nat}
    (h : Crowded t os past ⟨s, before ++ ⟨o, .completing received⟩ :: after⟩)
    (hnow : Scene.moment t os past = ⟨s, before ++ ⟨o, .completing received⟩ :: after⟩) :
    Crowded t os past ⟨s, before ++ ⟨o, .counted received (min s.overtime received)⟩ :: after⟩ := by
  have hk : ⟨o, .completing received⟩ ∈ before ++ ⟨o, .completing received⟩ :: after :=
    List.mem_append_cons_self
  have hreceived : received = t.expected := h.recalls _ hk
  have hfull : Full t os past past :=
    ⟨List.prefix_refl _, hnow ▸ h.tallied.le_received hk rfl⟩
  have hovertime : s.overtime = t.late (Scene.moment t os past).brought :=
    hnow ▸ h.tallied.overtime_eq
  refine h.replace rfl ⟨hreceived, past, hfull, ?_⟩ h.tallied.count h.tells
  rw [hovertime, hreceived]

/-- It reads the times and forms the verdict. -/
theorem form {o : Outcome} {received overtime : Nat}
    (h : Crowded t os past ⟨s, before ++ ⟨o, .counted received overtime⟩ :: after⟩)
    (hnow : Scene.moment t os past = ⟨s, before ++ ⟨o, .counted received overtime⟩ :: after⟩) :
    Crowded t os past
      ⟨s, before ++ ⟨o, .judged (t.verdict received overtime s.total)⟩ :: after⟩ := by
  obtain ⟨hreceived, counted, hfull, hovertime⟩ :=
    h.recalls ⟨o, .counted received overtime⟩ List.mem_append_cons_self
  have htotal : s.total = (t.times (Scene.moment t os past).brought).sum :=
    hnow ▸ h.tallied.total_eq
  have hv : t.verdict received overtime s.total = t.read os counted past := by
    rw [hreceived, hovertime, htotal, Terms.read]
  exact h.replace rfl ⟨counted, past, hfull, List.prefix_refl _, hv⟩ h.tallied.form h.tells

/-- It sends the verdict. -/
theorem send {o : Outcome} {v : Verdict}
    (h : Crowded t os past ⟨s, before ++ ⟨o, .judged v⟩ :: after⟩) :
    Crowded t os past ⟨(s.send v).1, before ++ ⟨o, .ended true⟩ :: after⟩ := by
  have hv : v.Formed t os past := h.recalls _ List.mem_append_cons_self
  have hmailbox : s.mailbox = .awaited := by
    rcases h.tells with ⟨-, hmailbox⟩ | ⟨hsender, -⟩
    · exact hmailbox
    · rw [h.tallied.sender_eq_true rfl rfl] at hsender
      cases hsender
  obtain ⟨hsend, htallied⟩ := h.tallied.send hmailbox
  refine h.replace rfl trivial htallied ?_
  rw [hsend]
  exact .inr ⟨rfl, v, rfl, hv⟩

end Step

/-- A step keeps what the cells hold and where it comes from. -/
theorem step (h : Crowded t os past (.moment t os past)) (i : Nat) :
    Crowded t os (past ++ [i]) (.moment t os (past ++ [i])) := by
  have hnext : Scene.moment t os (past ++ [i]) = (Scene.moment t os past).step t i :=
    Scene.run_concat past i
  rw [hnext]
  apply Crowded.mono _ (List.prefix_append past [i])
  obtain ⟨s, calls, hnow⟩ : ∃ s calls, Scene.moment t os past = ⟨s, calls⟩ := ⟨_, _, rfl⟩
  rw [hnow] at h ⊢
  rcases Scene.step_cases t ⟨s, calls⟩ i with hsame | ⟨before, ⟨o, d⟩, after, hcalls, hstep⟩
  · rwa [hsame]
  rw [hstep]
  simp only at hcalls
  subst hcalls
  cases d with
  | fresh o' =>
    obtain rfl : o' = o := h.recalls _ List.mem_append_cons_self
    exact h.add
  | added => exact h.take
  | completing received => exact h.count hnow
  | counted received overtime => exact h.form hnow
  | judged v => exact h.send
  | ended completed => exact h

/-- So does any interleaving. -/
theorem moment (ht : 0 < t.expected) (os : List Outcome) (schedule : List Nat) :
    Crowded t os schedule (.moment t os schedule) := by
  induction schedule using List.reverseRecOn with
  | nil => exact start ht os
  | append_singleton past i ih => exact ih.step i

/-- As long as the verdict can be sent, it is awaited and no call has returned true. -/
theorem mailbox_cases (h : Crowded t os past c) :
    (c.tally.sender = true ∧ c.tally.mailbox = .awaited ∧ c.calls.countP (·.returned true) = 0) ∨
      (c.tally.sender = false ∧ (∃ v, c.tally.mailbox = .holds v) ∧
        c.calls.countP (·.returned true) = 1) := by
  have hreturned := h.tallied.returned
  rcases h.tells with ⟨hsender, hmailbox⟩ | ⟨hsender, v, hmailbox, -⟩
  · rw [hsender] at hreturned
    exact .inl ⟨hsender, hmailbox, hreturned⟩
  · rw [hsender] at hreturned
    exact .inr ⟨hsender, ⟨v, hmailbox⟩, hreturned⟩

/-- A verdict that was sent was formed in the past, and the sender is gone. -/
theorem of_holds (h : Crowded t os past c) {v : Verdict} (hv : c.tally.mailbox = .holds v) :
    c.tally.sender = false ∧ v.Formed t os past := by
  rcases h.tells with ⟨-, hmailbox⟩ | ⟨hsender, v', hmailbox, hformed⟩
  · rw [hv] at hmailbox
    cases hmailbox
  · rw [hv] at hmailbox
    cases hmailbox
    exact ⟨hsender, hformed⟩

end Crowded

/-! ## The first numbers -/

section First

variable {t : Terms} {os : List Outcome} {schedule early later : List Nat}

theorem Scene.moment_append (t : Terms) (os : List Outcome) (past more : List Nat) :
    moment t os (past ++ more) = (moment t os past).run t more :=
  run_append past more

/-- What is in the cells at a moment is there at every later one. -/
theorem Scene.brought_moment (h : early <+: later) :
    (moment t os early).brought.Sublist (moment t os later).brought := by
  obtain ⟨more, rfl⟩ := h
  rw [moment_append]
  exact brought_run more

/-- Between two moments at which as many numbers were taken, no call has taken one. -/
theorem Scene.numbered_moment (ht : 0 < t.expected) (h : early <+: later)
    (hsame : (moment t os early).tally.received = (moment t os later).tally.received) :
    (moment t os early).numbered = (moment t os later).numbered := by
  rw [(Crowded.moment ht os early).tallied.received_eq,
    (Crowded.moment ht os later).tallied.received_eq] at hsame
  obtain ⟨more, rfl⟩ := h
  rw [moment_append] at hsame ⊢
  exact (numbered_run more).eq_of_length hsame

/-- Which calls have taken the first numbers does not depend on the moment at which one looks. -/
theorem Scene.numbered_unique (ht : 0 < t.expected) (hearly : early <+: schedule)
    (hlater : later <+: schedule)
    (hsame : (moment t os early).tally.received = (moment t os later).tally.received) :
    (moment t os early).numbered = (moment t os later).numbered := by
  rcases List.prefix_or_prefix_of_prefix hearly hlater with h | h
  · exact numbered_moment ht h hsame
  · exact (numbered_moment ht h hsame.symm).symm

end First

/-- When nothing but the first outcomes was in the cells, the verdict is that on them. -/
theorem Terms.read_eq_judge {t : Terms} {os first : List Outcome} {counted added : List Nat}
    (hcounted : (Scene.moment t os counted).brought = first)
    (hadded : (Scene.moment t os added).brought = first) (hlength : first.length = t.expected) :
    t.read os counted added = t.judge first := by
  have hlate : t.late first ≤ first.length := List.countP_le_length
  rw [Terms.read, hcounted, hadded, ← hlength, min_eq_left hlate, Terms.judge]

/-- Where a verdict comes from. The expected numbers were taken when `taken` was over, and the call
that took the last of them read the overtime runs when `counted` was over and the times when `added`
was. The cells then held the outcomes of the first numbers, and possibly some of surplus calls. -/
structure Verdict.ReadAt (v : Verdict) (t : Terms) (os : List Outcome)
    (schedule taken counted added : List Nat) : Prop where
  taken_le : taken <+: counted
  counted_le : counted <+: added
  added_le : added <+: schedule
  last : (Scene.moment t os taken).tally.received = t.expected
  unique : ∀ moment, moment <+: schedule →
    (Scene.moment t os moment).tally.received = t.expected →
      (Scene.moment t os moment).numbered = (Scene.moment t os taken).numbered
  length : (Scene.moment t os taken).numbered.length = t.expected
  numbered : (Scene.moment t os taken).numbered.Sublist (Scene.moment t os counted).brought
  brought : (Scene.moment t os counted).brought.Sublist (Scene.moment t os added).brought
  delivered : (Scene.moment t os added).brought.Sublist os
  eq : v = t.read os counted added
  /-- Surplus outcomes never make a run of the first ones count less. -/
  late_le : t.late (Scene.moment t os taken).numbered ≤ v.overtime
  /-- Outcomes that are not in the cells by then never touch the verdict. -/
  judge : (Scene.moment t os added).brought = (Scene.moment t os taken).numbered →
    v = t.judge (Scene.moment t os taken).numbered

/-- A verdict that was formed in the past was read at moments of the past. -/
theorem Verdict.Formed.readAt {t : Terms} (ht : 0 < t.expected) {os : List Outcome}
    {schedule : List Nat} {v : Verdict} (hv : v.Formed t os schedule) :
    ∃ taken counted added, v.ReadAt t os schedule taken counted added := by
  obtain ⟨counted, added, ⟨hcounted, hfull⟩, hadded, rfl⟩ := hv
  obtain ⟨taken, htaken, hlast⟩ := Scene.exists_taken counted
    (show (Scene.start os).tally.received ≤ t.expected from Nat.zero_le _) hfull
  have hpast : taken <+: schedule := htaken.trans (hcounted.trans hadded)
  have hlength : (Scene.moment t os taken).numbered.length = t.expected := by
    rw [← (Crowded.moment ht os taken).tallied.received_eq]
    exact hlast
  have hnumbered : (Scene.moment t os taken).numbered.Sublist (Scene.moment t os counted).brought :=
    (Scene.numbered_sublist _).trans (Scene.brought_moment htaken)
  have hbrought : (Scene.moment t os counted).brought.Sublist (Scene.moment t os added).brought :=
    Scene.brought_moment hcounted
  refine ⟨taken, counted, added, htaken, hcounted, hadded, hlast, ?_, hlength, hnumbered, hbrought,
    ?_, rfl, ?_, ?_⟩
  · intro moment hmoment hreceived
    exact Scene.numbered_unique ht hmoment hpast (hreceived.trans hlast.symm)
  · have hcalls := Scene.brought_sublist (Scene.moment t os added)
    rwa [(Crowded.moment ht os added).outcomes] at hcalls
  · have hlate : t.late (Scene.moment t os taken).numbered ≤
        (Scene.moment t os taken).numbered.length := List.countP_le_length
    exact le_min hnumbered.countP_le (hlength ▸ hlate)
  · intro hnone
    exact Terms.read_eq_judge (hnumbered.antisymm (hnone ▸ hbrought)).symm hnone hlength

/-! ## What comes of every schedule -/

/-- For any number of outcomes that are delivered at once, and any interleaving of the steps: no
verdict is sent before the last expected number is taken; at most one call returns true, and it is
the one that has sent the verdict; once every call has made its steps, all are over and one has
returned true; and a verdict that was sent is never replaced. It is read off the cells at moments
when the expected numbers were taken: it is the verdict on the outcomes of the first numbers unless
surplus calls had added theirs by then. -/
theorem Scene.judged_with_surplus (t : Terms) (ht : 0 < t.expected) (os : List Outcome)
    (schedule : List Nat) :
    let c := Scene.moment t os schedule
    (c.tally.received < t.expected →
      c.tally.mailbox = .awaited ∧ c.calls.countP (·.returned true) = 0) ∧
    (c.tally.mailbox = .awaited ∧ c.calls.countP (·.returned true) = 0 ∨
      (∃ v, c.tally.mailbox = .holds v) ∧ c.calls.countP (·.returned true) = 1) ∧
    (t.expected ≤ os.length → (∀ i < os.length, Delivery.length ≤ schedule.count i) →
      (∀ k ∈ c.calls, k.returned true = true ∨ k.returned false = true) ∧
        c.calls.countP (·.returned true) = 1 ∧ ∃ v, c.tally.mailbox = .holds v) ∧
    ∀ v, c.tally.mailbox = .holds v →
      (∀ (late : List Outcome) (more : List Nat),
        ((c.join late).run t more).tally.mailbox = .holds v) ∧
      ∃ taken counted added, v.ReadAt t os schedule taken counted added := by
  intro c
  have hc : Crowded t os schedule c := Crowded.moment ht os schedule
  have hlength : c.calls.length = os.length := by
    rw [← hc.outcomes, List.length_map]
  refine ⟨?_, ?_, ?_, ?_⟩
  · intro hlt
    rcases hc.mailbox_cases with ⟨-, h⟩ | ⟨hsender, -⟩
    · exact h
    · rw [hc.tallied.sender_of_lt hlt] at hsender
      cases hsender
  · rcases hc.mailbox_cases with ⟨-, h⟩ | ⟨-, h⟩
    · exact .inl h
    · exact .inr h
  · intro hos hall
    have hend : ∀ k ∈ c.calls, k.left = 0 := by
      intro k hk
      obtain ⟨i, hi, hget⟩ := List.getElem_of_mem hk
      exact Scene.left_eq_zero (List.getElem?_eq_some_iff.2 ⟨hi, hget⟩) (hall i (by omega))
    obtain ⟨hone, hsender⟩ := hc.tallied.returned_of_left hend (by omega)
    refine ⟨fun k hk => Call.returned_of_left (hend k hk), hone, ?_⟩
    rcases hc.mailbox_cases with ⟨hnot, -⟩ | ⟨-, hholds, -⟩
    · rw [hnot] at hsender
      cases hsender
    · exact hholds
  · intro v hv
    obtain ⟨hsender, hformed⟩ := hc.of_holds hv
    refine ⟨?_, hformed.readAt ht⟩
    intro late more
    exact ((hc.tallied.closed rfl hsender hv late).run more).mailbox

/-- Of three calls for two numbers, the last one begins after the verdict was sent. -/
theorem Scene.judged_with_surplus_three :
    let t : Terms := ⟨150.0, 2, 0.5⟩
    let os : List Outcome := [⟨.success, 5⟩, ⟨.error, 3⟩, ⟨.error, 4⟩]
    let schedule := [0, 1, 1, 0, 0, 0, 0, 2, 2, 1, 1, 1, 0, 0, 2, 2, 2]
    0 < t.expected ∧ t.expected < os.length ∧
      ∃ v, (Scene.moment t os schedule).tally.mailbox = .holds v ∧
        ∃ taken counted added, v.ReadAt t os schedule taken counted added := by
  intro t os schedule
  have ht : 0 < t.expected := by decide
  have hos : t.expected < os.length := by decide
  have h := Scene.judged_with_surplus t ht os schedule
  obtain ⟨-, -, v, hv⟩ := h.2.2.1 hos.le (by decide)
  exact ⟨ht, hos, v, hv, (h.2.2.2 v hv).2⟩

/-- A call that failed adds its outcome, and before it takes a number another call takes the only
expected one. The verdict counts the failed run, whose number is a surplus one, and is not the
verdict on the first number. -/
theorem Scene.surplus_overtime :
    let t : Terms := ⟨150.0, 1, 1.0⟩
    let os : List Outcome := [⟨.error, 10⟩, ⟨.success, 10⟩]
    let taken := Scene.moment t os [0, 1, 1]
    let c := Scene.moment t os [0, 1, 1, 1, 1, 1, 0]
    taken.tally.received = t.expected ∧ taken.numbered = [⟨.success, 10⟩] ∧
      (∀ k ∈ c.calls, k.returned true = true ∨ k.returned false = true) ∧
      c.tally.verdict?.map (·.overtime) = some 1 ∧ (t.judge taken.numbered).overtime = 0 ∧
      c.tally.verdict?.map (·.success) = some false ∧ (t.judge taken.numbered).success = true ∧
      c.tally.verdict? ≠ some (t.judge taken.numbered) := by
  intro t os taken c
  have hfailed : c.tally.verdict?.map (·.success) = some false := by decide +kernel
  have hnormal : (t.judge taken.numbered).success = true := by decide +kernel
  refine ⟨by decide +kernel, by decide +kernel, by decide +kernel, by decide +kernel,
    by decide +kernel, hfailed, hnormal, fun heq => ?_⟩
  rw [heq, Option.map_some, hnormal] at hfailed
  cases hfailed

end LoadProbe.Pass
