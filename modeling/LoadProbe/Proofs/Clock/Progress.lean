import LoadProbe.Proofs.Clock.Thread
import Mathlib.Algebra.GroupWithZero.Nat
import Mathlib.Algebra.Order.BigOperators.Group.List
import Mathlib.Algebra.Order.Group.Nat

/-!
# Runs that come to an end

The work that a task has left is a number that may depend on the world and on the time at which
the task goes on. When every step spends some of it (`Machine.Progresses`), the work on the agenda
bounds the steps that a clock makes, so a leading task, which never ends just itself, ends its run
(`Timeline.Stands.ends`).
-/

namespace LoadProbe

open Pass

variable {ω τ : Type}

/-- The work of a task after its step at `now`. -/
def Next.work (W : Nat → τ → Nat) (now : Nat) : Next τ → Nat
  | .pause millis x => W (now + millis) x
  | .giveWay x => W now x
  | .endRun _ | .endTask => 0

/-- A step at `now` leaves less work than `had` to its task and to those that it starts. -/
def Move.Spends (W : ω → Nat → τ → Nat) (now had : Nat) (move : Move ω τ) : Prop :=
  (move.started.map (W move.world now)).sum + move.next.work (W move.world) now < had

/-- A step that starts no task. -/
theorem Move.spends_of_nil {W : ω → Nat → τ → Nat} {now had : Nat} {w : ω} {said : List Notice}
    {next : Next τ} (h : next.work (W w) now < had) :
    (Move.mk w said [] next).Spends W now had := by
  unfold Move.Spends
  rwa [List.map_nil, List.sum_nil, Nat.zero_add]

/-- Every step of a leading task that is where `I` says, and of any task aside, spends work, and
makes no other task's work more. -/
structure Machine.Progresses (m : Machine ω τ) (lead : τ → Bool) (I : Nat → ω → τ → Prop)
    (W : ω → Nat → τ → Nat) : Prop where
  leading : ∀ {now w x}, I now w x → (m.step now w x).Spends W now (W w now x)
  aside : ∀ now w {x}, lead x = false → (m.step now w x).Spends W now (W w now x)
  others : ∀ now w x due y, W (m.step now w x).world due y ≤ W w due y

/-- The work of all tasks of an agenda. -/
def agendaWork (W : Nat → τ → Nat) (agenda : List (Entry τ)) : Nat :=
  (agenda.map fun e => W e.due e.task).sum

section Work

variable {W W' : Nat → τ → Nat}

theorem agendaWork_cons (e : Entry τ) (agenda : List (Entry τ)) :
    agendaWork W (e :: agenda) = W e.due e.task + agendaWork W agenda :=
  List.sum_cons

theorem agendaWork_mono (h : ∀ due x, W' due x ≤ W due x) (agenda : List (Entry τ)) :
    agendaWork W' agenda ≤ agendaWork W agenda :=
  List.sum_le_sum fun e _ => h e.due e.task

theorem agendaWork_enqueue (e : Entry τ) (agenda : List (Entry τ)) :
    agendaWork W (enqueue e agenda) = W e.due e.task + agendaWork W agenda := by
  induction agenda with
  | nil => exact agendaWork_cons e []
  | cons x rest ih =>
    unfold enqueue
    split
    · rw [agendaWork_cons, ih, agendaWork_cons, Nat.add_left_comm]
    · exact agendaWork_cons e _

theorem agendaWork_started (now run : Nat) (tasks : List τ) (agenda : List (Entry τ)) :
    agendaWork W (tasks.foldl (fun a task => enqueue ⟨now, run, task⟩ a) agenda) =
      (tasks.map (W now)).sum + agendaWork W agenda := by
  induction tasks generalizing agenda with
  | nil => exact (Nat.zero_add _).symm
  | cons x rest ih =>
    rw [List.foldl_cons, ih, agendaWork_enqueue, List.map_cons, List.sum_cons, Nat.add_assoc]
    exact Nat.add_left_comm _ _ _

theorem agendaWork_next_le (m : Machine ω τ) (now run : Nat) (others : List (Entry τ))
    (next : Next τ) :
    agendaWork W (next.agenda m now run others) ≤ next.work W now + agendaWork W others := by
  cases next with
  | pause millis x =>
    cases millis with
    | zero => exact (agendaWork_cons _ _).le
    | succ millis => exact (agendaWork_enqueue _ _).le
  | giveWay x => exact (agendaWork_enqueue _ _).le
  | endRun fate =>
    rw [Next.work, Nat.zero_add]
    cases fate with
    | outcome o => exact (List.filter_sublist.map _).sum_le_sum fun _ _ => Nat.zero_le _
    | crash => exact le_rfl
  | endTask => exact (Nat.zero_add _).ge

end Work

namespace Timeline

variable {m : Machine ω τ} {t : Timeline ω τ} {e : Entry τ} {rest : List (Entry τ)}
variable {lead : τ → Bool} {I : Nat → ω → τ → Prop} {Done : ω → Fate → Prop}
variable {W : ω → Nat → τ → Nat}

/-- A step leaves less work on the agenda. -/
theorem agendaWork_advance (hm : m.Progresses lead I W) (h : InOrder t.now (e :: rest))
    (hspends : (m.step e.due t.world e.task).Spends W e.due (W t.world e.due e.task)) :
    agendaWork (W (t.advance m e rest).1.world) (t.advance m e rest).1.agenda <
      agendaWork (W t.world) (e :: rest) := by
  have hothers := hm.others e.due t.world e.task
  rw [(advance_eq m h).1, agendaWork_cons]
  generalize m.step e.due t.world e.task = move at hspends hothers
  have hrest := agendaWork_mono hothers rest
  have hnext := agendaWork_next_le (W := W move.world) m e.due e.run
    (move.started.foldl (fun a task => enqueue ⟨e.due, e.run, task⟩ a) rest) move.next
  rw [agendaWork_started] at hnext
  unfold Move.Spends at hspends
  dsimp only
  omega

/-- As long as a run has not ended, its leading task is on the agenda. -/
theorem Stands.exists_leader (hs : t.Stands lead I Done []) :
    ∃ e ∈ t.agenda, I e.due t.world e.task := by
  cases hs with
  | running e hleads hI => exact ⟨e, List.mem_of_mem_filter (hleads ▸ List.mem_cons_self), hI⟩

/-- As long as a run has not ended, every step spends work. -/
theorem Stands.spends (hw : m.Progresses lead I W) (hs : t.Stands lead I Done [])
    (ht : t.agenda = e :: rest) :
    (m.step e.due t.world e.task).Spends W e.due (W t.world e.due e.task) := by
  cases hlead : lead e.task with
  | false => exact hw.aside _ _ hlead
  | true =>
    cases hs with
    | running leader hleads hI =>
      rw [ht, leaders_cons_of_lead hlead] at hleads
      obtain ⟨rfl, -⟩ := List.cons.inj hleads
      exact hw.leading hI

/-- A clock that makes at least as many steps as there is work left comes to the end of the run. -/
theorem Stands.ends (hm : m.Led lead I Done) (hw : m.Progresses lead I W) (fuel : Nat)
    (hs : t.Stands lead I Done []) (h : InOrder t.now t.agenda)
    (hfuel : agendaWork (W t.world) t.agenda ≤ fuel) :
    ∃ fate, Pass.fates (t.untilEnded m fuel 1).2 = [fate] := by
  induction fuel generalizing t with
  | zero =>
    obtain ⟨leader, hmem, hI⟩ := hs.exists_leader
    have hle : W t.world leader.due leader.task ≤ agendaWork (W t.world) t.agenda :=
      List.single_le_sum (fun _ _ => Nat.zero_le _) _ (List.mem_map_of_mem hmem)
    have hpos := Nat.zero_lt_of_lt (hw.leading hI)
    omega
  | succ fuel ih =>
    unfold Timeline.untilEnded
    rw [if_neg Nat.one_ne_zero]
    split
    · rename_i ht
      obtain ⟨leader, hmem, -⟩ := hs.exists_leader
      rw [ht] at hmem
      exact absurd hmem List.not_mem_nil
    · rename_i e rest ht
      have hspends := hs.spends hw ht
      have hnext := hs.advance hm h ht
      rw [ht] at h hfuel
      have hless := agendaWork_advance hw h hspends
      simp only [fates_append]
      rw [List.nil_append] at hnext
      generalize Pass.fates (t.advance m e rest).2 = ended at hnext ⊢
      cases ended with
      | nil => exact ih hnext (inOrder_advance m h) (by omega)
      | cons fate others =>
        -- One run has ended, and no other one is waited for.
        cases hnext
        refine ⟨fate, ?_⟩
        cases fuel <;> rfl

end Timeline

end LoadProbe
