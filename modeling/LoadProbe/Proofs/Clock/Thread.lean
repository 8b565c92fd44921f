import LoadProbe.Clock

/-!
# The leading task of a run

The agenda of a clock is kept in the order of time (`InOrder`), so every task makes its step exactly
when it is due. Among the tasks of a run one leads: it alone ends the run. The tasks aside may do
what they like as long as they leave alone what the leading task rests on. `Machine.Led` states this
for an invariant of the leading task and for what is known once the run is over, and
`Timeline.Stands.untilEnded` and `Timeline.Stands.untilTime` carry both through the steps of all
tasks, in whatever order they come.
-/

namespace LoadProbe

open Pass

variable {ω τ : Type}

/-! ## The order of time -/

/-- The entries are in the order of time, and none of them is due before `now`. -/
structure InOrder (now : Nat) (agenda : List (Entry τ)) : Prop where
  sorted : agenda.Pairwise fun x y => x.due ≤ y.due
  now_le : ∀ e ∈ agenda, now ≤ e.due

theorem mem_enqueue {e x : Entry τ} {agenda : List (Entry τ)} :
    x ∈ enqueue e agenda ↔ x = e ∨ x ∈ agenda := by
  induction agenda with
  | nil => simp [enqueue]
  | cons y rest ih =>
    unfold enqueue
    split
    · simp only [List.mem_cons, ih]
      exact or_left_comm
    · exact List.mem_cons

namespace InOrder

variable {now : Nat} {e : Entry τ} {agenda rest : List (Entry τ)}

theorem due_le (h : InOrder now (e :: rest)) : now ≤ e.due :=
  h.now_le e List.mem_cons_self

/-- From the time of the first entry on the others are in order. -/
theorem tail (h : InOrder now (e :: rest)) : InOrder e.due rest :=
  ⟨(List.pairwise_cons.1 h.sorted).2, (List.pairwise_cons.1 h.sorted).1⟩

theorem cons (h : InOrder now agenda) (he : e.due = now) : InOrder now (e :: agenda) where
  sorted := List.pairwise_cons.2 ⟨fun x hx => he ▸ h.now_le x hx, h.sorted⟩
  now_le := List.forall_mem_cons.2 ⟨Nat.le_of_eq he.symm, h.now_le⟩

theorem filter (h : InOrder now agenda) (q : Entry τ → Bool) : InOrder now (agenda.filter q) :=
  ⟨h.sorted.filter q, fun x hx => h.now_le x (List.mem_filter.1 hx).1⟩

theorem enqueue (h : InOrder now agenda) (he : now ≤ e.due) : InOrder now (enqueue e agenda) := by
  refine ⟨?_, fun x hx => ?_⟩
  · have hsorted := h.sorted
    clear h
    induction agenda with
    | nil => exact List.pairwise_singleton _ e
    | cons y rest ih =>
      obtain ⟨hy, hrest⟩ := List.pairwise_cons.1 hsorted
      unfold LoadProbe.enqueue
      split
      · rename_i hle
        refine List.pairwise_cons.2 ⟨fun x hx => ?_, ih hrest⟩
        rcases mem_enqueue.1 hx with rfl | hx
        · exact hle
        · exact hy x hx
      · rename_i hlt
        refine List.pairwise_cons.2 ⟨fun x hx => ?_, hsorted⟩
        rcases List.mem_cons.1 hx with rfl | hx
        · omega
        · have := hy x hx
          omega
  · rcases mem_enqueue.1 hx with rfl | hx
    · exact he
    · exact h.now_le x hx

/-- Tasks that are started now are put in order. -/
theorem started (run : Nat) (tasks : List τ) (h : InOrder now agenda) :
    InOrder now (tasks.foldl (fun a task => LoadProbe.enqueue ⟨now, run, task⟩ a) agenda) := by
  induction tasks generalizing agenda with
  | nil => exact h
  | cons x rest ih => exact ih (h.enqueue (Nat.le_refl now))

end InOrder

/-! ## One step of a clock -/

/-- The runs that a step ends. -/
def Next.fates : Next τ → List Fate
  | .endRun fate => [fate]
  | _ => []

/-- The agenda after a step of a task of run `run`, when there are these others. -/
def Next.agenda (m : Machine ω τ) (now run : Nat) (others : List (Entry τ)) :
    Next τ → List (Entry τ)
  | .pause 0 x => ⟨now, run, x⟩ :: others
  | .pause millis x => enqueue ⟨now + millis, run, x⟩ others
  | .giveWay x => enqueue ⟨now, run, x⟩ others
  | .endRun (.outcome _) => others.filter fun y => !(y.run == run && m.bound y.task)
  | .endRun .crash => others
  | .endTask => others

theorem InOrder.next (m : Machine ω τ) {now : Nat} {others : List (Entry τ)}
    (h : InOrder now others) (run : Nat) (next : Next τ) :
    InOrder now (next.agenda m now run others) := by
  cases next with
  | pause millis x =>
    cases millis with
    | zero => exact h.cons rfl
    | succ millis => exact h.enqueue (Nat.le_add_right now _)
  | giveWay x => exact h.enqueue (Nat.le_refl now)
  | endRun fate =>
    cases fate with
    | outcome o => exact h.filter _
    | crash => exact h
  | endTask => exact h

namespace Timeline

variable {m : Machine ω τ} {t : Timeline ω τ} {e : Entry τ} {rest : List (Entry τ)}

/-- What a step says ends no run. -/
theorem fates_reports (said : List Notice) : Pass.fates (said.map Event.report) = [] := by
  simp [Pass.fates]

/-- A task makes its step when it is due, or now when the clock is past that. -/
theorem advance_eq_max (m : Machine ω τ) (t : Timeline ω τ) (e : Entry τ) (rest : List (Entry τ)) :
    let now := max t.now e.due
    let move := m.step now t.world e.task
    let others := move.started.foldl (fun a task => enqueue ⟨now, e.run, task⟩ a) rest
    (t.advance m e rest).1 = ⟨now, move.next.agenda m now e.run others, t.runs, move.world⟩ ∧
      Pass.fates (t.advance m e rest).2 = move.next.fates := by
  intro now move others
  unfold advance
  dsimp only
  rw [show m.step (max t.now e.due) t.world e.task = move from rfl]
  cases move.next with
  | pause millis x =>
    cases millis with
    | zero => exact ⟨rfl, fates_reports _⟩
    | succ millis => exact ⟨rfl, fates_reports _⟩
  | giveWay x => exact ⟨rfl, fates_reports _⟩
  | endRun fate =>
    refine ⟨?_, (fates_append _ _).trans (by rw [fates_reports]; rfl)⟩
    cases fate <;> rfl
  | endTask => exact ⟨rfl, fates_reports _⟩

/-- The first task of an agenda in order makes its step when it is due. -/
theorem advance_eq (m : Machine ω τ) (h : InOrder t.now (e :: rest)) :
    let move := m.step e.due t.world e.task
    let others := move.started.foldl (fun a task => enqueue ⟨e.due, e.run, task⟩ a) rest
    (t.advance m e rest).1 = ⟨e.due, move.next.agenda m e.due e.run others, t.runs, move.world⟩ ∧
      Pass.fates (t.advance m e rest).2 = move.next.fates := by
  have hstep := advance_eq_max m t e rest
  rwa [Nat.max_eq_right h.due_le] at hstep

/-- A step keeps the agenda in order. -/
theorem inOrder_advance (m : Machine ω τ) (h : InOrder t.now (e :: rest)) :
    InOrder (t.advance m e rest).1.now (t.advance m e rest).1.agenda := by
  rw [(advance_eq m h).1]
  exact (h.tail.started e.run _).next m e.run _

/-! ## Many steps of a clock -/

/-- Every step of a clock keeps `P`, a property of the clock and of the runs that have ended. -/
def Kept (m : Machine ω τ) (P : Timeline ω τ → List Fate → Prop) : Prop :=
  ∀ {t e rest ended}, P t ended → InOrder t.now t.agenda → t.agenda = e :: rest →
    P (t.advance m e rest).1 (ended ++ Pass.fates (t.advance m e rest).2)

variable {P : Timeline ω τ → List Fate → Prop} {ended : List Fate}

/-- So does the clock that goes on until its run ends. -/
theorem Kept.untilEnded (hP : Kept m P) (fuel waiting : Nat) (h : P t ended)
    (horder : InOrder t.now t.agenda) :
    let later := t.untilEnded m fuel waiting
    P later.1 (ended ++ Pass.fates later.2) ∧ InOrder later.1.now later.1.agenda := by
  induction fuel generalizing t waiting ended with
  | zero => exact ⟨(List.append_nil ended).symm ▸ h, horder⟩
  | succ fuel ih =>
    unfold Timeline.untilEnded
    split
    · exact ⟨(List.append_nil ended).symm ▸ h, horder⟩
    · split
      · exact ⟨(List.append_nil ended).symm ▸ h, horder⟩
      · rename_i e rest ht
        have hnext := hP h horder ht
        rw [ht] at horder
        simp only [fates_append, ← List.append_assoc]
        exact ih _ hnext (inOrder_advance m horder)

/-- The same when it goes on with everything that is due by a time. -/
theorem Kept.untilTime (hP : Kept m P) (last fuel : Nat) (h : P t ended)
    (horder : InOrder t.now t.agenda) :
    P (t.untilTime m last fuel).1 (ended ++ Pass.fates (t.untilTime m last fuel).2) := by
  induction fuel generalizing t ended with
  | zero => exact (List.append_nil ended).symm ▸ h
  | succ fuel ih =>
    unfold Timeline.untilTime
    split
    · exact (List.append_nil ended).symm ▸ h
    · rename_i e rest ht
      split
      · exact (List.append_nil ended).symm ▸ h
      · have hnext := hP h horder ht
        rw [ht] at horder
        simp only [fates_append, ← List.append_assoc]
        exact ih hnext (inOrder_advance m horder)

end Timeline

/-! ## The leading task -/

/-- What a task does next, when it goes on, ends its run or ends just itself. -/
def Next.Meets (goes : Nat → τ → Prop) (ends : Fate → Prop) (stops : Prop) : Next τ → Prop
  | .pause millis x => goes millis x
  | .giveWay x => goes 0 x
  | .endRun fate => ends fate
  | .endTask => stops

theorem Next.Meets.mono {goes goes' : Nat → τ → Prop} {ends ends' : Fate → Prop}
    {stops stops' : Prop} {next : Next τ} (h : next.Meets goes ends stops)
    (hgoes : ∀ millis x, goes millis x → goes' millis x) (hends : ∀ fate, ends fate → ends' fate)
    (hstops : stops → stops') : next.Meets goes' ends' stops' := by
  cases next with
  | pause millis x => exact hgoes millis x h
  | giveWay x => exact hgoes 0 x h
  | endRun fate => exact hends fate h
  | endTask => exact hstops h

/-- A step of a leading task at `now`: it starts tasks aside, and goes on in a place of the
invariant `I` or ends its run as `Done` says. It never ends just itself. -/
def Move.KeepsLead (lead : τ → Bool) (I : Nat → ω → τ → Prop) (Done : ω → Fate → Prop) (now : Nat)
    (move : Move ω τ) : Prop :=
  (∀ y ∈ move.started, lead y = false) ∧
    move.next.Meets (fun millis => I (now + millis) move.world) (Done move.world) False

/-- A step of a task aside: it starts tasks aside, and never ends the run. -/
def Move.StaysAside (lead : τ → Bool) (move : Move ω τ) : Prop :=
  (∀ y ∈ move.started, lead y = false) ∧
    move.next.Meets (fun _ y => lead y = false) (fun _ => False) True

/-- Runs that are led: `I` holds of a leading task at the time at which it makes its step, and
`Done` once it has ended its run. -/
structure Machine.Led (m : Machine ω τ) (lead : τ → Bool) (I : Nat → ω → τ → Prop)
    (Done : ω → Fate → Prop) : Prop where
  /-- The invariant is one of leading tasks. -/
  leads : ∀ {now w x}, I now w x → lead x = true
  leading : ∀ {now w x}, I now w x → (m.step now w x).KeepsLead lead I Done now
  aside : ∀ now w {x}, lead x = false → (m.step now w x).StaysAside lead
  /-- A task aside leaves alone what the leading task rests on. -/
  keeps : ∀ now w {x}, lead x = false → ∀ {due y}, I due w y → I due (m.step now w x).world y
  keeps_done : ∀ now w {x}, lead x = false → ∀ {fate}, Done w fate →
    Done (m.step now w x).world fate

/-- The entries of the tasks that lead. -/
def leaders (lead : τ → Bool) (agenda : List (Entry τ)) : List (Entry τ) :=
  agenda.filter fun e => lead e.task

section Leaders

variable {lead : τ → Bool} {e : Entry τ}

theorem leaders_cons_of_lead (h : lead e.task = true) (agenda : List (Entry τ)) :
    leaders lead (e :: agenda) = e :: leaders lead agenda :=
  List.filter_cons_of_pos h

theorem leaders_cons_of_aside (h : lead e.task = false) (agenda : List (Entry τ)) :
    leaders lead (e :: agenda) = leaders lead agenda :=
  List.filter_cons_of_neg (Bool.eq_false_iff.1 h)

theorem leaders_enqueue_of_aside (h : lead e.task = false) (agenda : List (Entry τ)) :
    leaders lead (enqueue e agenda) = leaders lead agenda := by
  induction agenda with
  | nil => exact leaders_cons_of_aside h []
  | cons x rest ih =>
    unfold enqueue
    split
    · cases hx : lead x.task with
      | true => rw [leaders_cons_of_lead hx, leaders_cons_of_lead hx, ih]
      | false => rw [leaders_cons_of_aside hx, leaders_cons_of_aside hx, ih]
    · exact leaders_cons_of_aside h _

theorem leaders_enqueue_of_lead (h : lead e.task = true) {agenda : List (Entry τ)}
    (hnone : leaders lead agenda = []) : leaders lead (enqueue e agenda) = [e] := by
  induction agenda with
  | nil => exact leaders_cons_of_lead h []
  | cons x rest ih =>
    have hx : lead x.task = false := by
      cases hx : lead x.task with
      | true =>
        rw [leaders_cons_of_lead hx] at hnone
        cases hnone
      | false => rfl
    have hrest := hnone
    rw [leaders_cons_of_aside hx] at hrest
    unfold enqueue
    split
    · exact (leaders_cons_of_aside hx _).trans (ih hrest)
    · exact (leaders_cons_of_lead h _).trans (congrArg _ hnone)

/-- Tasks aside that are started leave the leading ones as they are. -/
theorem leaders_started (now run : Nat) {tasks : List τ} (h : ∀ x ∈ tasks, lead x = false)
    (agenda : List (Entry τ)) :
    leaders lead (tasks.foldl (fun a task => enqueue ⟨now, run, task⟩ a) agenda) =
      leaders lead agenda := by
  induction tasks generalizing agenda with
  | nil => rfl
  | cons x rest ih =>
    obtain ⟨hx, hrest⟩ := List.forall_mem_cons.1 h
    exact (ih hrest _).trans (leaders_enqueue_of_aside hx agenda)

end Leaders

/-- Where a clock with one run stands: the run is led by one task, or it has ended. -/
inductive Timeline.Stands (lead : τ → Bool) (I : Nat → ω → τ → Prop) (Done : ω → Fate → Prop)
    (t : Timeline ω τ) : List Fate → Prop
  | running (e : Entry τ) : leaders lead t.agenda = [e] → I e.due t.world e.task →
      Stands lead I Done t []
  | ended {fate : Fate} : leaders lead t.agenda = [] → Done t.world fate →
      Stands lead I Done t [fate]

namespace Timeline

variable {m : Machine ω τ} {t : Timeline ω τ} {e : Entry τ} {rest : List (Entry τ)}
variable {lead : τ → Bool} {I : Nat → ω → τ → Prop} {Done : ω → Fate → Prop}

/-- A step of the leading task: it goes on leading, or the run is over. -/
theorem Stands.advance_leading (hm : m.Led lead I Done) (h : InOrder t.now (e :: rest))
    (hrest : leaders lead rest = []) (hI : I e.due t.world e.task) :
    Stands lead I Done (t.advance m e rest).1 (Pass.fates (t.advance m e rest).2) := by
  obtain ⟨hadvance, hfates⟩ := advance_eq m h
  obtain ⟨hstarted, hnext⟩ := hm.leading hI
  rw [hadvance, hfates]
  generalize m.step e.due t.world e.task = move at hstarted hnext
  obtain ⟨w, said, tasks, next⟩ := move
  have hothers := (leaders_started e.due e.run hstarted rest).trans hrest
  cases next with
  | pause millis x =>
    have hlead : lead x = true := hm.leads hnext
    refine .running ⟨e.due + millis, e.run, x⟩ ?_ hnext
    cases millis with
    | zero => exact (leaders_cons_of_lead hlead _).trans (congrArg _ hothers)
    | succ millis => exact leaders_enqueue_of_lead hlead hothers
  | giveWay x =>
    have hlead : lead x = true := hm.leads hnext
    exact .running ⟨e.due, e.run, x⟩ (leaders_enqueue_of_lead hlead hothers) hnext
  | endRun fate =>
    refine .ended ?_ hnext
    cases fate with
    | outcome o => exact List.eq_nil_of_sublist_nil (hothers ▸ List.filter_sublist.filter _)
    | crash => exact hothers
  | endTask => exact hnext.elim

/-- A step of a task aside: the leading task is the same as before. -/
theorem leaders_advance_of_aside (hm : m.Led lead I Done) (h : InOrder t.now (e :: rest))
    (haside : lead e.task = false) :
    leaders lead (t.advance m e rest).1.agenda = leaders lead rest ∧
      (t.advance m e rest).1.world = (m.step e.due t.world e.task).world ∧
      Pass.fates (t.advance m e rest).2 = [] := by
  obtain ⟨hadvance, hfates⟩ := advance_eq m h
  obtain ⟨hstarted, hnext⟩ := hm.aside e.due t.world haside
  rw [hadvance, hfates]
  generalize m.step e.due t.world e.task = move at hstarted hnext
  obtain ⟨w, said, tasks, next⟩ := move
  have hothers := leaders_started e.due e.run hstarted rest
  refine ⟨Eq.trans ?_ hothers, rfl, ?_⟩
  · cases next with
    | pause millis x =>
      have hx : lead x = false := hnext
      cases millis with
      | zero => exact leaders_cons_of_aside hx _
      | succ millis => exact leaders_enqueue_of_aside hx _
    | giveWay x =>
      have hx : lead x = false := hnext
      exact leaders_enqueue_of_aside hx _
    | endRun fate => exact hnext.elim
    | endTask => rfl
  · cases next with
    | endRun fate => exact hnext.elim
    | _ => rfl

/-- A step of any task. -/
theorem Stands.advance (hm : m.Led lead I Done) {ended : List Fate}
    (hs : t.Stands lead I Done ended) (h : InOrder t.now t.agenda) (ht : t.agenda = e :: rest) :
    Stands lead I Done (t.advance m e rest).1 (ended ++ Pass.fates (t.advance m e rest).2) := by
  rw [ht] at h
  cases hlead : lead e.task with
  | true =>
    cases hs with
    | running x hleads hI =>
      -- Only one task leads, so it is the one that the invariant is about.
      rw [ht, leaders_cons_of_lead hlead] at hleads
      obtain ⟨rfl, hrest⟩ := List.cons.inj hleads
      exact advance_leading hm h hrest hI
    | ended hleads hdone =>
      rw [ht, leaders_cons_of_lead hlead] at hleads
      cases hleads
  | false =>
    obtain ⟨hsame, hworld, hfates⟩ := leaders_advance_of_aside hm h hlead
    rw [← leaders_cons_of_aside hlead rest, ← ht] at hsame
    rw [hfates, List.append_nil]
    cases hs with
    | running x hleads hI =>
      refine .running x (hsame.trans hleads) ?_
      rw [hworld]
      exact hm.keeps e.due t.world hlead hI
    | ended hleads hdone =>
      refine .ended (hsame.trans hleads) ?_
      rw [hworld]
      exact hm.keeps_done e.due t.world hlead hdone

/-- A run that is started alone leads. -/
theorem Stands.launch (hm : m.Led lead I Done) {w : ω} (hI : I 0 w m.first) :
    Stands lead I Done ((start w).launch m) [] ∧
      InOrder 0 ((start w : Timeline ω τ).launch m).agenda :=
  ⟨.running ⟨0, 0, m.first⟩ (leaders_cons_of_lead (hm.leads hI) []) hI,
    ⟨List.pairwise_singleton _ _, fun _ _ => Nat.zero_le _⟩⟩

/-- The run that the clock goes on with until it ends. -/
theorem Stands.untilEnded (hm : m.Led lead I Done) (fuel waiting : Nat) {ended : List Fate}
    (hs : t.Stands lead I Done ended) (h : InOrder t.now t.agenda) :
    let later := t.untilEnded m fuel waiting
    later.1.Stands lead I Done (ended ++ Pass.fates later.2) ∧
      InOrder later.1.now later.1.agenda :=
  Kept.untilEnded (fun hs h ht => hs.advance hm h ht) fuel waiting hs h

/-- The same when it goes on with everything that is due by a time. -/
theorem Stands.untilTime (hm : m.Led lead I Done) (last fuel : Nat) {ended : List Fate}
    (hs : t.Stands lead I Done ended) (h : InOrder t.now t.agenda) :
    (t.untilTime m last fuel).1.Stands lead I Done
      (ended ++ Pass.fates (t.untilTime m last fuel).2) :=
  Kept.untilTime (fun hs h ht => hs.advance hm h ht) last fuel hs h

end Timeline

end LoadProbe
