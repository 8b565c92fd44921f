import LoadProbe.Proofs.Pass.Flight
import LoadProbe.Proofs.Pass.History
import Mathlib.Data.List.OfFn
import Mathlib.Data.Prod.Lex
import Mathlib.Order.WellFounded

/-!
# A run step by step

A `Tour` is the loop over the passes together with all tasks that were ever spawned: the loop
decides whether there is another pass, makes its steps, and decides upon the verdict that it
returned, while tasks of passes that have returned may still have steps to make. Since a pass
returns only after its runs are over, all runs of one pass are over when the next one is begun
(`Tour.Faithful.past`), and since its verdict does not depend on the order of the steps, the loop
makes the passes of `converge`, whatever the order is (`Tour.Faithful.ahead`, `Tour.Faithful.last`).
-/

namespace LoadProbe.Pass

/-- A launcher whose runs end as it is given beforehand, in the order in which they are launched.
Its world is how many were. -/
def Launcher.destined (fate : Nat → Fate) : Launcher Nat where
  single w := (w + 1, [], fate w)
  together w count := (w + count, (List.range count).map fun i => .ended (fate (w + i)))
  complete w count := by simp [fates, List.filterMap_map]

/-- How the next runs end that are launched together. -/
def upcoming (fate : Nat → Fate) (w count : Nat) : List Fate :=
  (List.range count).map fun i => fate (w + i)

theorem fates_destined (fate : Nat → Fate) (w count : Nat) :
    fates ((Launcher.destined fate).together w count).2 = upcoming fate w count := by
  simp [fates, upcoming, Launcher.destined, List.filterMap_map]

/-- A pass launches a run for each executor. -/
theorem pass_destined_world (fate : Nat → Fate) (s : Settings) (threshold : Float) (w : Nat)
    (executors : Int) :
    (pass (.destined fate) s threshold w executors).1 = w + executors.toNat := by
  rcases le_or_gt executors 0 with hle | hpos
  · simp [pass, hle, Int.toNat_eq_zero.2 hle]
  · simp only [pass, if_neg (not_le.2 hpos)]
    split <;> rfl

/-! ## The loop and all tasks -/

/-- How far the loop has come. -/
inductive Tour.Stage where
  /-- It is to be decided whether there is another pass. -/
  | deciding
  | passing (f : Flight)
  | finished (best : Best)

/-- The loop, and the passes that have returned. Their tasks may have steps left to make. -/
structure Tour where
  state : State
  past : List Flight
  stage : Tour.Stage

namespace Tour

/-- The pass that has not been decided upon yet. -/
def Stage.current : Stage → List Flight
  | passing f => [f]
  | _ => []

/-- All passes so far, in order. -/
def flights (c : Tour) : List Flight :=
  c.past ++ c.stage.current

/-- How many runs the passes have launched that have returned. -/
def world (c : Tour) : Nat :=
  (c.past.map fun f => f.executors.toNat).sum

/-- How many runs have begun in all passes so far. -/
def launched (c : Tour) : Nat :=
  (c.flights.map (·.launched)).sum

/-- How many steps are left at most to the passes so far. -/
def left (c : Tour) : Nat :=
  (c.flights.map (·.left)).sum

/-- The loop at its start. -/
def begin (s : Settings) : Tour :=
  ⟨.initial s.initial, [], .deciding⟩

variable (s : Settings) (threshold : Float) (fate : Nat → Fate)

/-- One step of the loop itself. -/
def main (c : Tour) : Tour :=
  match c.stage with
  | .deciding =>
    if c.state.exhausted s then { c with stage := .finished c.state.best }
    else
      { c with
        stage := .passing (.begin c.state.executors
          (upcoming fate c.world c.state.executors.toNat)) }
  | .passing f =>
    match f.stage with
    | .returned v => ⟨c.state.advance s v, c.past ++ [f], .deciding⟩
    | _ => { c with stage := .passing f.main }
  | .finished _ => c

/-- One step of a task of a pass, each named by its index. -/
def task (c : Tour) (p i : Nat) : Tour :=
  { c with
    past := c.past.modify p (·.task s threshold i)
    stage :=
      match c.stage with
      | .passing f => .passing (if p = c.past.length then f.task s threshold i else f)
      | stage => stage }

/-- One step of the loop itself, or of a task. -/
def step (c : Tour) : Option (Nat × Nat) → Tour
  | none => c.main s fate
  | some (p, i) => c.task s threshold p i

/-- What the loop itself may do in one step. -/
inductive Moves : Tour → Tour → Prop
  | finish (st : State) (past : List Flight) (hex : st.exhausted s = true) :
      Moves ⟨st, past, .deciding⟩ ⟨st, past, .finished st.best⟩
  | depart (st : State) (past : List Flight) (hex : st.exhausted s = false) (f : Flight)
      (hf : f = .begin st.executors
        (upcoming fate (world ⟨st, past, .deciding⟩) st.executors.toNat)) :
      Moves ⟨st, past, .deciding⟩ ⟨st, past, .passing f⟩
  | pass (st : State) (past : List Flight) (f : Flight) (hf : ¬∃ v, f.stage = .returned v) :
      Moves ⟨st, past, .passing f⟩ ⟨st, past, .passing f.main⟩
  | arrive (st : State) (past : List Flight) (f : Flight) (v : Verdict)
      (hv : f.stage = .returned v) :
      Moves ⟨st, past, .passing f⟩ ⟨st.advance s v, past ++ [f], .deciding⟩
  | rest (st : State) (past : List Flight) (best : Best) :
      Moves ⟨st, past, .finished best⟩ ⟨st, past, .finished best⟩

theorem moves_main (c : Tour) : Moves s fate c (c.main s fate) := by
  obtain ⟨st, past, stage⟩ := c
  cases stage with
  | deciding =>
    simp only [main]
    split
    · exact .finish _ _ ‹_›
    · exact .depart _ _ (Bool.eq_false_iff.2 ‹_›) _ rfl
  | passing f =>
    simp only [main]
    split
    · rename_i v hv
      exact .arrive _ _ _ v hv
    · rename_i hnot
      exact .pass _ _ _ fun ⟨v, hv⟩ => hnot v hv
  | finished best => exact .rest ..

variable {s threshold fate} {c : Tour}

/-- A task makes its step in its pass, and all else is left alone. -/
theorem task_cases (c : Tour) (p i : Nat) :
    c.task s threshold p i = c ∨
    (∃ before f after, c.past = before ++ f :: after ∧
      c.task s threshold p i = { c with past := before ++ f.task s threshold i :: after }) ∨
    (∃ f, c.stage = .passing f ∧ p = c.past.length ∧
      c.task s threshold p i = { c with stage := .passing (f.task s threshold i) }) := by
  obtain ⟨st, past, stage⟩ := c
  rcases Nat.lt_trichotomy p past.length with hlt | rfl | hgt
  · obtain ⟨before, f, after, hpast, -, hmodify⟩ :=
      List.exists_of_modify (·.task s threshold i) hlt
    refine .inr (.inl ⟨before, f, after, hpast, ?_⟩)
    cases stage <;> simp [task, hmodify, hlt.ne]
  · cases stage with
    | passing f => exact .inr (.inr ⟨f, rfl, rfl, by simp [task, List.modify_eq_self]⟩)
    | deciding | finished best => exact .inl (by simp [task, List.modify_eq_self])
  · left
    cases stage <;> simp [task, List.modify_eq_self hgt.le, hgt.ne']

/-- No task changes how many runs the passes have launched. -/
theorem world_task (s : Settings) (threshold : Float) (c : Tour) (p i : Nat) :
    (c.task s threshold p i).world = c.world := by
  rcases c.task_cases p i with hsame | ⟨before, f, after, hpast, hstep⟩ | ⟨f, -, -, hstep⟩
  · rw [hsame]
  · have hexecutors : (f.task s threshold i).executors = f.executors :=
      (f.step_fixed s threshold (some i)).1
    rw [hstep, world, world, hpast]
    simp only [List.map_append, List.map_cons, hexecutors]
  · rw [hstep]
    rfl

/-! ## What holds at every step -/

/-- The numbers of executors of the passes that a loop makes. -/
def plan (s : Settings) (threshold : Float) (fate : Nat → Fate) (w : Nat) (st : State) : List Int :=
  (passes s (pass (.destined fate) s threshold) w st).map (·.state.executors)

/-- What holds of a loop at every step. -/
structure Faithful (s : Settings) (threshold : Float) (fate : Nat → Fate) (c : Tour) : Prop where
  /-- The passes before have returned. -/
  past : ∀ f ∈ c.past, f.Faithful s threshold ∧ ∃ v, f.stage = .returned v
  current : ∀ f, c.stage = .passing f → f.Faithful s threshold ∧ c.state.exhausted s = false ∧
    f.executors = c.state.executors ∧
    f.fates = upcoming fate c.world c.state.executors.toNat
  finished : ∀ best, c.stage = .finished best → c.state.exhausted s = true ∧ best = c.state.best
  /-- The passes before and the ones to come are those of the whole loop. -/
  ahead : c.past.map (·.executors) ++ plan s threshold fate c.world c.state =
    plan s threshold fate 0 (.initial s.initial)
  last : ending s (Pass.pass (.destined fate) s threshold) c.world c.state =
    ending s (Pass.pass (.destined fate) s threshold) 0 (.initial s.initial)

theorem Faithful.begin : (begin s).Faithful s threshold fate :=
  ⟨nofun, nofun, nofun, rfl, rfl⟩

/-- The verdict that the current pass has returned is the one that the loop `converge` decides
upon. -/
theorem Faithful.verdict_eq (h : c.Faithful s threshold fate) {f : Flight}
    (hf : c.stage = .passing f) {v : Verdict} (hv : f.stage = .returned v) :
    v = (Pass.pass (.destined fate) s threshold c.world c.state.executors).2.1 := by
  obtain ⟨hfaithful, -, hexecutors, hfates⟩ := h.current f hf
  rw [(hfaithful.returned v hv).2, ← hexecutors]
  refine Flight.verdict_eq_pass _ _ ?_
  rw [fates_destined, hfates, hexecutors]

/-- The turn that the loop has made when a pass returns. -/
theorem Faithful.turn_eq (h : c.Faithful s threshold fate) {f : Flight}
    (hf : c.stage = .passing f) {v : Verdict} (hv : f.stage = .returned v) :
    turn s (Pass.pass (.destined fate) s threshold) (c.world, c.state) =
      (c.world + f.executors.toNat, c.state.advance s v) := by
  rw [turn, ← h.verdict_eq hf hv, pass_destined_world, (h.current f hf).2.2.1]

/-- One of the passes to come is over then. -/
theorem Faithful.plan_eq (h : c.Faithful s threshold fate) {f : Flight}
    (hf : c.stage = .passing f) {v : Verdict} (hv : f.stage = .returned v) :
    plan s threshold fate c.world c.state = c.state.executors ::
      plan s threshold fate (c.world + f.executors.toNat) (c.state.advance s v) := by
  rw [plan, passes_of_not_exhausted (h.current f hf).2.1, h.turn_eq hf hv]
  rfl

/-- What the loop itself does keeps this. -/
theorem Moves.faithful {c' : Tour} (hm : Moves s fate c c') (h : c.Faithful s threshold fate) :
    c'.Faithful s threshold fate := by
  cases hm with
  | finish st past hex =>
    refine ⟨h.past, nofun, ?_, h.ahead, h.last⟩
    rintro _ ⟨⟩
    exact ⟨hex, rfl⟩
  | depart st past hex f hf =>
    refine ⟨h.past, ?_, nofun, h.ahead, h.last⟩
    rintro _ ⟨⟩
    subst hf
    exact ⟨.begin (by simp [upcoming]), hex, rfl, rfl⟩
  | pass st past f hf =>
    refine ⟨h.past, ?_, nofun, h.ahead, h.last⟩
    rintro _ ⟨⟩
    obtain ⟨hfaithful, hex, hexecutors, hfates⟩ := h.current f rfl
    obtain ⟨hexecutors', hfates'⟩ := f.step_fixed s threshold none
    exact ⟨f.moves_main.faithful hfaithful, hex, hexecutors'.trans hexecutors,
      hfates'.trans hfates⟩
  | arrive st past f v hv =>
    obtain ⟨hfaithful, hex, hexecutors, -⟩ := h.current f rfl
    have hworld : world ⟨st.advance s v, past ++ [f], .deciding⟩ =
        world ⟨st, past, .passing f⟩ + f.executors.toNat := by
      simp [world]
    refine ⟨?_, nofun, nofun, ?_, ?_⟩
    · rw [List.forall_mem_append, List.forall_mem_singleton]
      exact ⟨h.past, hfaithful, v, hv⟩
    · rw [hworld, ← h.ahead, h.plan_eq rfl hv, ← hexecutors, List.map_append, List.append_assoc]
      rfl
    · rw [hworld, ← h.last, ending_of_not_exhausted hex, h.turn_eq rfl hv]
  | rest => exact h

/-- What a task does keeps it, too. -/
theorem Faithful.task (h : c.Faithful s threshold fate) (p i : Nat) :
    (c.task s threshold p i).Faithful s threshold fate := by
  have hworld := c.world_task s threshold p i
  rcases c.task_cases p i with hsame | ⟨before, f, after, hpast, hstep⟩ | ⟨f, hf, -, hstep⟩
  · rwa [hsame]
  · have hall := h.past
    have hexecutors : (f.task s threshold i).executors = f.executors :=
      (f.step_fixed s threshold (some i)).1
    rw [hpast, List.forall_mem_append, List.forall_mem_cons] at hall
    obtain ⟨hbefore, ⟨hfaithful, v, hv⟩, hafter⟩ := hall
    rw [hstep] at hworld ⊢
    refine ⟨?_, ?_, h.finished, ?_, ?_⟩
    · rw [List.forall_mem_append, List.forall_mem_cons]
      exact ⟨hbefore, ⟨hfaithful.task i, v, Flight.stage_step_of_returned hv (some i)⟩, hafter⟩
    · rw [hworld]
      exact h.current
    · rw [hworld, ← h.ahead, hpast]
      simp [hexecutors]
    · rw [hworld]
      exact h.last
  · rw [hstep]
    refine ⟨h.past, ?_, nofun, h.ahead, h.last⟩
    rintro _ ⟨⟩
    obtain ⟨hfaithful, hex, hexecutors, hfates⟩ := h.current f hf
    obtain ⟨hexecutors', hfates'⟩ := f.step_fixed s threshold (some i)
    exact ⟨hfaithful.task i, hex, hexecutors'.trans hexecutors, hfates'.trans hfates⟩

theorem Faithful.step (h : c.Faithful s threshold fate) (a : Option (Nat × Nat)) :
    (c.step s threshold fate a).Faithful s threshold fate := by
  cases a with
  | none => exact (c.moves_main s fate).faithful h
  | some target => exact h.task target.1 target.2

/-! ## Passes in turn, and the end of the loop -/

/-- Once another pass was begun, all runs of a pass have begun and are over. -/
theorem Faithful.landed (h : c.Faithful s threshold fate) {p : Nat} {f : Flight}
    (hf : c.flights[p]? = some f) (hlater : p + 1 < c.flights.length) :
    f.launched = f.executors.toNat ∧ f.airborne = 0 := by
  have hp : p < c.past.length := by
    have hcurrent : c.stage.current.length ≤ 1 := by cases c.stage <;> simp [Stage.current]
    rw [flights, List.length_append] at hlater
    omega
  rw [flights, List.getElem?_append_left hp] at hf
  obtain ⟨hfaithful, v, hv⟩ := h.past f (List.mem_of_getElem? hf)
  exact hfaithful.launched_of_returned hv

/-- In the end the passes were those of `converge`, with a run for each executor, and so is the
best number. -/
theorem Faithful.of_finished (h : c.Faithful s threshold fate) {best : Best}
    (hbest : c.stage = .finished best) :
    best = (ending s (Pass.pass (.destined fate) s threshold) 0 (.initial s.initial)).2.best ∧
      c.flights.map (·.executors) = plan s threshold fate 0 (.initial s.initial) ∧
      c.launched = ((plan s threshold fate 0 (.initial s.initial)).map Int.toNat).sum := by
  obtain ⟨hex, rfl⟩ := h.finished best hbest
  have hflights : c.flights = c.past := by
    rw [flights, hbest]
    exact List.append_nil _
  have hplan : c.past.map (·.executors) = plan s threshold fate 0 (.initial s.initial) := by
    rw [← h.ahead, plan, passes_of_exhausted hex, List.map_nil, List.append_nil]
  refine ⟨?_, ?_, ?_⟩
  · rw [← h.last, ending_of_exhausted hex]
  · rw [hflights, hplan]
  · rw [← hplan, launched, hflights, List.map_map]
    refine congrArg List.sum (List.map_congr_left fun f hf => ?_)
    obtain ⟨hfaithful, v, hv⟩ := h.past f hf
    exact (hfaithful.launched_of_returned hv).1

/-! ## Progress -/

variable (s threshold fate) in
/-- How far the loop is from its end, for each pass to come twice. -/
def remaining (c : Tour) : Nat :=
  match c.stage with
  | .deciding => 2 * (plan s threshold fate c.world c.state).length + 1
  | .passing _ => 2 * (plan s threshold fate c.world c.state).length
  | .finished _ => 0

variable (s threshold fate) in
/-- Steps of the loop count more than those of passes and tasks. -/
def rank (c : Tour) : ℕ ×ₗ ℕ :=
  toLex (c.remaining s threshold fate, c.left)

/-- What the loop itself does leads on, unless it has ended or its pass has to wait. -/
theorem Moves.rank_lt {c' : Tour} (hm : Moves s fate c c') (h : c.Faithful s threshold fate) :
    c'.rank s threshold fate < c.rank s threshold fate ∨
      c' = c ∧ ((∃ best, c.stage = .finished best) ∨
        ∃ f, c.stage = .passing f ∧ f.main = f ∧ ¬∃ v, f.stage = .returned v) := by
  cases hm with
  | finish st past hex => exact .inl (Prod.Lex.toLex_lt_toLex.2 (.inl (Nat.succ_pos _)))
  | depart st past hex f hf => exact .inl (Prod.Lex.toLex_lt_toLex.2 (.inl (Nat.lt_succ_self _)))
  | pass st past f hf =>
    rcases f.moves_main.left_lt with hlt | ⟨hsame, -⟩
    · refine .inl (Prod.Lex.toLex_lt_toLex.2 (.inr ⟨rfl, ?_⟩))
      simpa [left, flights, Stage.current] using hlt
    · rw [hsame]
      exact .inr ⟨rfl, .inr ⟨f, rfl, hsame, hf⟩⟩
  | arrive st past f v hv =>
    have hworld : world ⟨st.advance s v, past ++ [f], .deciding⟩ =
        world ⟨st, past, .passing f⟩ + f.executors.toNat := by
      simp [world]
    refine .inl (Prod.Lex.toLex_lt_toLex.2 (.inl ?_))
    simp only [remaining, hworld, h.plan_eq rfl hv, List.length_cons]
    omega
  | rest st past best => exact .inr ⟨rfl, .inl ⟨best, rfl⟩⟩

/-- What a task does leads on, or nothing changes. -/
theorem task_eq_or_rank_lt (c : Tour) (p i : Nat) :
    c.task s threshold p i = c ∨
      (c.task s threshold p i).rank s threshold fate < c.rank s threshold fate := by
  have hworld := c.world_task s threshold p i
  rcases c.task_cases p i with hsame | ⟨before, f, after, hpast, hstep⟩ | ⟨f, hf, -, hstep⟩
  · exact .inl hsame
  · rcases f.task_eq_or_left_lt s threshold i with hsame | hlt
    · left
      rw [hstep, hsame, ← hpast]
    · right
      rw [hstep] at hworld ⊢
      refine Prod.Lex.toLex_lt_toLex.2 (.inr ⟨?_, ?_⟩)
      · simp only [remaining, hworld]
      · simp only [left, flights, hpast, List.map_append, List.map_cons, List.sum_append,
          List.sum_cons]
        omega
  · rcases f.task_eq_or_left_lt s threshold i with hsame | hlt
    · left
      rw [hstep, hsame, ← hf]
    · right
      rw [hstep]
      refine Prod.Lex.toLex_lt_toLex.2 (.inr ⟨?_, ?_⟩)
      · simp only [remaining, hf]
        rfl
      · simpa [left, flights, hf, Stage.current] using hlt

/-- As long as the loop has not ended, it or a task of its pass has a step to make. -/
theorem Faithful.exists_rank_lt (h : c.Faithful s threshold fate)
    (hnot : ¬∃ best, c.stage = .finished best) :
    ∃ a, (c.step s threshold fate a).rank s threshold fate < c.rank s threshold fate := by
  rcases (c.moves_main s fate).rank_lt h with hlt | ⟨-, hfinished | ⟨f, hf, hidle, hreturned⟩⟩
  · exact ⟨none, hlt⟩
  · exact absurd hfinished hnot
  · -- The pass itself waits, so it is one of its tasks that has a step to make.
    obtain ⟨a, ha⟩ := Flight.exists_left_lt s threshold hreturned
    cases a with
    | none =>
      rw [Flight.step, hidle] at ha
      exact absurd ha (lt_irrefl _)
    | some i =>
      have hstage : (c.task s threshold c.past.length i).stage =
          .passing (f.task s threshold i) := by
        simp [Tour.task, hf]
      refine ⟨some (c.past.length, i), ?_⟩
      refine (c.task_eq_or_rank_lt c.past.length i).resolve_left fun hsame => ?_
      rw [hsame, hf] at hstage
      rw [Flight.step, ← Stage.passing.inj hstage] at ha
      exact lt_irrefl _ ha

/-- The steps of the loop and of all tasks lead to its end. -/
theorem progress (s : Settings) (threshold : Float) (fate : Nat → Fate) :
    Progress (Tour.step s threshold fate) (Faithful s threshold fate)
      (fun c => ∃ best, c.stage = .finished best) (rank s threshold fate) where
  keeps _ a h := h.step a
  lowers c a h := by
    cases a with
    | none => exact ((c.moves_main s fate).rank_lt h).symm.imp_left And.left
    | some target => exact c.task_eq_or_rank_lt target.1 target.2
  helped _ h hnot := h.exists_rank_lt hnot

end Tour

/-! ## Every order of the steps -/

/-- Whatever the number of executors, the fates of the runs and the order of the steps are, a pass
launches no more runs than it has executors, and exactly so many when it returns; none of them is in
flight then, and the verdict is the one on all outcomes, or the one without runs when some run
crashed or there was none. A pass in which nobody has a step left to make has returned, and every
fair schedule gets it there. In a whole run all runs of a pass are over before the next pass begins,
the passes are those of `converge`, with a run for each executor, and every fair schedule gets the
run to its end. -/
theorem passes_in_turn :
    (∀ (s : Settings) (threshold : Float) (executors : Int) (fate : Fin executors.toNat → Fate)
      (schedule : Nat → Option Nat),
      let fates := List.ofFn fate
      let flight := follow (Flight.step s threshold) (.begin executors fates) schedule
      (∀ n,
        (flight n).launched ≤ executors.toNat ∧
        (∀ v, (flight n).stage = .returned v →
          (flight n).launched = executors.toNat ∧ (flight n).airborne = 0 ∧
          v = (if executors ≤ 0 ∨ .crash ∈ fates then .noRuns
            else (passTerms s threshold executors.toNat).judge (fates.filterMap Fate.outcome?)) ∧
          ∀ (σ : Type) (l : Launcher σ) (w : σ),
            (Pass.fates (l.together w executors.toNat).2).Perm fates →
              v = (pass l s threshold w executors).2.1) ∧
        ((∀ a, (flight n).step s threshold a = flight n) → ∃ v, (flight n).stage = .returned v)) ∧
      (Fair (Flight.step s threshold) (.begin executors fates) schedule →
        ∃ n v, (flight n).stage = .returned v)) ∧
    (∀ (s : Settings) (baseline : Float) (fate : Nat → Fate) (schedule : Nat → Option (Nat × Nat)),
      let threshold := baseline * s.overtime
      let made := passes s (pass (.destined fate) s threshold) 0 (.initial s.initial)
      let tour := follow (Tour.step s threshold fate) (.begin s) schedule
      (∀ n,
        (∀ p f, (tour n).flights[p]? = some f → p + 1 < (tour n).flights.length →
          f.launched = f.executors.toNat ∧ f.airborne = 0) ∧
        (∀ best, (tour n).stage = .finished best →
          best = (run (.destined fate) s 0 baseline).2.1 ∧
          (tour n).flights.map (·.executors) = made.map (·.state.executors) ∧
          (tour n).launched = (made.map fun p => p.state.executors.toNat).sum)) ∧
      (Fair (Tour.step s threshold fate) (.begin s) schedule →
        ∃ n best, (tour n).stage = .finished best)) := by
  refine ⟨?_, ?_⟩
  · intro s threshold executors fate schedule fates flight
    have hfaithful (n : Nat) : (flight n).Faithful s threshold :=
      follow_invariant (.begin List.length_ofFn) (fun _ a h => h.step a) n
    have hfixed (n : Nat) : (flight n).executors = executors ∧ (flight n).fates = fates :=
      Flight.follow_fixed _ schedule n
    refine ⟨fun n => ⟨?_, fun v hv => ?_, Flight.returned_of_idle⟩, fun hfair => ?_⟩
    · have hle := (hfaithful n).launched_le
      rwa [(hfixed n).1] at hle
    · obtain ⟨hlaunched, hairborne⟩ := (hfaithful n).launched_of_returned hv
      obtain ⟨-, hverdict⟩ := (hfaithful n).returned v hv
      obtain ⟨hexecutors, hfates⟩ := hfixed n
      rw [hexecutors] at hlaunched
      refine ⟨hlaunched, hairborne, ?_, fun σ l w hperm => ?_⟩
      · rw [hverdict, Flight.verdict, Flight.terms, hexecutors, hfates]
      · rw [hverdict, Flight.verdict_eq_pass l w (by rw [hexecutors, hfates]; exact hperm),
          hexecutors]
    · exact (Flight.progress s threshold).eventually trivial hfair
  · intro s baseline fate schedule threshold made tour
    have hfaithful (n : Nat) : (tour n).Faithful s threshold fate :=
      follow_invariant .begin (fun _ a h => h.step a) n
    refine ⟨fun n => ⟨fun p f hf hlater => ?_, fun best hbest => ?_⟩, fun hfair => ?_⟩
    · exact (hfaithful n).landed hf hlater
    · obtain ⟨hbest, hmade, hlaunched⟩ := (hfaithful n).of_finished hbest
      refine ⟨hbest, hmade, ?_⟩
      rw [hlaunched, Tour.plan, List.map_map]
      rfl
    · exact (Tour.progress s threshold fate).eventually .begin hfair

/-- Settings of at most two charged passes, the first one of two executors. -/
def twoPasses : Settings where
  initial := 2
  upper := 4
  expand := 2.0
  refine := 1.5
  shrink := 0.5
  overtime := 1.5
  success := 1.0
  maxRefine := 2
  compat := false

/-- The second run of all crashes, and every other one takes 100 milliseconds. -/
def secondCrashes (n : Nat) : Fate :=
  if n = 1 then .crash else .outcome ⟨.success, 100⟩

/-- In the first pass a run crashes, so that the second one has one executor, and succeeds. -/
theorem passes_in_turn_crashing :
    (∃ n, (follow (Flight.step twoPasses 150.0) (.begin 2 [secondCrashes 0, secondCrashes 1])
      (sweep _) n).stage = .returned .noRuns) ∧
    ∃ n best,
      let tour := follow (Tour.step twoPasses 150.0 secondCrashes) (.begin twoPasses) (sweep _) n
      tour.stage = .finished best ∧ best.executors = 1 ∧
        tour.flights.map (·.executors) = [2, 1] ∧ tour.launched = 3 := by
  have hthreshold : 100.0 * twoPasses.overtime = 150.0 := by decide +kernel
  have hlength : (passes twoPasses (pass (.destined secondCrashes) twoPasses 150.0) 0
      (.initial twoPasses.initial)).length = 2 :=
    length_passes_eq (by decide +kernel) (by decide +kernel)
  have hmade : (passes twoPasses (pass (.destined secondCrashes) twoPasses 150.0) 0
      (.initial twoPasses.initial)).map (·.state.executors) = [2, 1] := by
    rw [passes_eq_map, hlength]
    decide +kernel
  have hbest : (run (.destined secondCrashes) twoPasses 0 100.0).2.1.executors = 1 := by
    show (ending twoPasses (pass (.destined secondCrashes) twoPasses (100.0 * twoPasses.overtime)) 0
      (.initial twoPasses.initial)).2.best.executors = 1
    rw [hthreshold, ending_eq_turns, hlength]
    decide +kernel
  constructor
  · obtain ⟨hany, hend⟩ := passes_in_turn.1 twoPasses 150.0 2 (fun i => secondCrashes i) (sweep _)
    obtain ⟨n, v, hv⟩ := hend .sweep
    obtain ⟨-, -, hverdict, -⟩ := (hany n).2.1 v hv
    rw [if_pos (by decide)] at hverdict
    exact ⟨n, hverdict ▸ hv⟩
  · obtain ⟨hany, hend⟩ := passes_in_turn.2 twoPasses 100.0 secondCrashes (sweep _)
    obtain ⟨n, best, hfinished⟩ := hend .sweep
    obtain ⟨hrun, hflights, hlaunched⟩ := (hany n).2 best hfinished
    rw [hthreshold] at hfinished hflights hlaunched
    have hsum := congrArg (fun ks : List Int => (ks.map Int.toNat).sum) hmade
    rw [List.map_map] at hsum
    exact ⟨n, best, hfinished, hrun ▸ hbest, hflights.trans hmade, hlaunched.trans hsum⟩

end LoadProbe.Pass
