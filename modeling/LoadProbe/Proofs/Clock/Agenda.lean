import LoadProbe.Proofs.Clock.Thread
import Mathlib.Data.List.Perm.Basic

/-!
# The tasks of an agenda

Which tasks an agenda holds after a step does not depend on their order (`Timeline.advance_perm_max`,
and `Timeline.advance_perm` for the first task of an agenda in order): the tasks that were there
before, those that the step started, and the task of the step itself when it goes on; when the run
ends with an outcome, the tasks that are bound to it are gone.
-/

namespace LoadProbe

open Pass

variable {ω τ : Type}

theorem enqueue_perm (e : Entry τ) (agenda : List (Entry τ)) :
    (enqueue e agenda).Perm (e :: agenda) := by
  induction agenda with
  | nil => exact .refl _
  | cons x rest ih =>
    unfold enqueue
    split
    · exact (ih.cons x).trans (.swap e x rest)
    · exact .refl _

/-- Tasks that are started are added. -/
theorem started_perm (now run : Nat) (tasks : List τ) (agenda : List (Entry τ)) :
    (tasks.foldl (fun a task => enqueue ⟨now, run, task⟩ a) agenda).Perm
      (tasks.map (Entry.mk now run) ++ agenda) := by
  induction tasks generalizing agenda with
  | nil => exact .refl _
  | cons x rest ih =>
    exact (ih _).trans (((enqueue_perm _ agenda).append_left _).trans List.perm_middle)

/-- The entry of a task that goes on after its step. -/
def Next.entries (now run : Nat) : Next τ → List (Entry τ)
  | .pause millis x => [⟨now + millis, run, x⟩]
  | .giveWay x => [⟨now, run, x⟩]
  | .endRun _ | .endTask => []

/-- The other tasks that are left after a step. -/
def Next.others (m : Machine ω τ) (run : Nat) (agenda : List (Entry τ)) : Next τ → List (Entry τ)
  | .endRun (.outcome _) => agenda.filter fun y => !(y.run == run && m.bound y.task)
  | _ => agenda

theorem Next.agenda_perm (m : Machine ω τ) (now run : Nat) (agenda : List (Entry τ))
    (next : Next τ) :
    (next.agenda m now run agenda).Perm (next.entries now run ++ next.others m run agenda) := by
  cases next with
  | pause millis x =>
    cases millis with
    | zero => exact .refl _
    | succ millis => exact enqueue_perm _ agenda
  | giveWay x => exact enqueue_perm _ agenda
  | endRun fate => cases fate <;> exact .refl _
  | endTask => exact .refl _

theorem Next.others_perm (m : Machine ω τ) (run : Nat) {agenda agenda' : List (Entry τ)}
    (h : agenda.Perm agenda') (next : Next τ) :
    (next.others m run agenda).Perm (next.others m run agenda') := by
  cases next with
  | endRun fate =>
    cases fate with
    | outcome o => exact h.filter _
    | crash => exact h
  | _ => exact h

/-- A step that ends no run leaves every other task. -/
theorem Next.others_of_meets (m : Machine ω τ) (run : Nat) (agenda : List (Entry τ))
    {goes : Nat → τ → Prop} {stops : Prop} {next : Next τ}
    (h : next.Meets goes (fun _ => False) stops) :
    next.others m run agenda = agenda ∧ next.fates = [] := by
  cases next with
  | endRun fate => exact h.elim
  | _ => exact ⟨rfl, rfl⟩

namespace Timeline

variable {m : Machine ω τ} {t : Timeline ω τ} {e : Entry τ} {rest : List (Entry τ)}

/-- The clock after a step of any task of its agenda. -/
theorem advance_perm_max (m : Machine ω τ) (t : Timeline ω τ) (e : Entry τ)
    {others : List (Entry τ)} (hrest : rest.Perm others) :
    let now := max t.now e.due
    let move := m.step now t.world e.task
    ∃ agenda, agenda.Perm (move.next.entries now e.run ++
        move.next.others m e.run (move.started.map (Entry.mk now e.run) ++ others)) ∧
      (t.advance m e rest).1 = ⟨now, agenda, t.runs, move.world⟩ ∧
      Pass.fates (t.advance m e rest).2 = move.next.fates := by
  intro now move
  obtain ⟨hadvance, hfates⟩ := advance_eq_max m t e rest
  refine ⟨_, ?_, hadvance, hfates⟩
  refine (Next.agenda_perm m now e.run _ move.next).trans (List.Perm.append_left _ ?_)
  exact Next.others_perm m e.run ((started_perm ..).trans (hrest.append_left _)) move.next

/-- The clock after a step of the first task of an agenda in order. -/
theorem advance_perm (m : Machine ω τ) (h : InOrder t.now (e :: rest)) {others : List (Entry τ)}
    (hrest : rest.Perm others) :
    let move := m.step e.due t.world e.task
    ∃ agenda, agenda.Perm (move.next.entries e.due e.run ++
        move.next.others m e.run (move.started.map (Entry.mk e.due e.run) ++ others)) ∧
      (t.advance m e rest).1 = ⟨e.due, agenda, t.runs, move.world⟩ ∧
      Pass.fates (t.advance m e rest).2 = move.next.fates := by
  have hstep := advance_perm_max m t e hrest
  rwa [Nat.max_eq_right h.due_le] at hstep

end Timeline

end LoadProbe
