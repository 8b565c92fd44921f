import LoadProbe.Proofs.Clock.Agenda

/-!
# Tasks in any order

The clock lets the tasks of its agenda go on in the order of time. `Timeline.Turns` leaves the order
open: any task of the agenda may make the next step, whenever it is due. What every such step keeps
holds in whatever order the tasks come (`Timeline.Turns.invariant`), and so it holds of the clock
itself (`Timeline.untilEnded_turns`, `Timeline.untilTime_turns`).
-/

namespace LoadProbe

open Pass

namespace Timeline

variable {ω τ : Type} {m : Machine ω τ} {t t' t'' : Timeline ω τ} {ended ended' : List Fate}

/-- The clock comes from `t` to this one by steps of its tasks in some order, and these runs end
meanwhile. -/
inductive Turns (m : Machine ω τ) (t : Timeline ω τ) : Timeline ω τ → List Fate → Prop
  | refl : Turns m t t []
  | turn {t' : Timeline ω τ} {ended : List Fate} {e : Entry τ} {rest : List (Entry τ)} :
      Turns m t t' ended → t'.agenda.Perm (e :: rest) →
      Turns m t (t'.advance m e rest).1 (ended ++ Pass.fates (t'.advance m e rest).2)

namespace Turns

theorem trans (h : Turns m t t' ended) (h' : Turns m t' t'' ended') :
    Turns m t t'' (ended ++ ended') := by
  induction h' with
  | refl => rwa [List.append_nil]
  | turn _ hperm ih =>
    rw [← List.append_assoc]
    exact ih.turn hperm

/-- One step of a task. -/
theorem single {e : Entry τ} {rest : List (Entry τ)} (hperm : t.agenda.Perm (e :: rest)) :
    Turns m t (t.advance m e rest).1 (Pass.fates (t.advance m e rest).2) :=
  Turns.refl.turn hperm

/-- What the step of any task keeps holds after any steps. -/
theorem invariant {P : Timeline ω τ → List Fate → Prop}
    (hstep : ∀ {t e rest ended}, P t ended → t.agenda.Perm (e :: rest) →
      P (t.advance m e rest).1 (ended ++ Pass.fates (t.advance m e rest).2))
    (hfirst : P t ended) (h : Turns m t t' ended') : P t' (ended ++ ended') := by
  induction h with
  | refl => rwa [List.append_nil]
  | turn _ hperm ih =>
    rw [← List.append_assoc]
    exact hstep ih hperm

/-- A clock without a task stands still. -/
theorem eq_of_nil (h : Turns m t t' ended) (hnone : t.agenda = []) : t' = t ∧ ended = [] := by
  induction h with
  | refl => exact ⟨rfl, rfl⟩
  | turn _ hperm ih =>
    rw [ih.1, hnone] at hperm
    cases hperm.symm.eq_nil

end Turns

/-- The order of time is one of the orders. -/
theorem untilEnded_turns (m : Machine ω τ) (t : Timeline ω τ) (fuel waiting : Nat) :
    Turns m t (t.untilEnded m fuel waiting).1 (Pass.fates (t.untilEnded m fuel waiting).2) := by
  induction fuel generalizing t waiting with
  | zero => exact .refl
  | succ fuel ih =>
    unfold untilEnded
    split
    · exact .refl
    · split
      · exact .refl
      · rename_i e rest ht
        simp only [fates_append]
        exact (Turns.single (.of_eq ht)).trans (ih _ _)

theorem untilTime_turns (m : Machine ω τ) (t : Timeline ω τ) (last fuel : Nat) :
    Turns m t (t.untilTime m last fuel).1 (Pass.fates (t.untilTime m last fuel).2) := by
  induction fuel generalizing t with
  | zero => exact .refl
  | succ fuel ih =>
    unfold untilTime
    split
    · exact .refl
    · rename_i e rest ht
      split
      · exact .refl
      · simp only [fates_append]
        exact (Turns.single (.of_eq ht)).trans (ih _)

end Timeline

end LoadProbe
