import LoadProbe.Proofs.Clock.Thread
import LoadProbe.Proofs.Play.Script

/-!
# Where the leading task of a run stands

The task that submits a strategy and pulls its feeds leads the run; the watchdog and the stops are
aside, since neither play nor pull calls nor their answers depend on them. `Stage` says what the
leading task has done by the time at which it makes its next step, in terms of the courses of
`Script`, and `Over` how a run came to its end. Each step keeps them (`Player.led`), so they hold of
every run, however its tasks come in turn (`Script.play_stands`).
-/

namespace LoadProbe

open Facade Feed Pass

/-- The task that leads a run. -/
def Task.leads : Task → Bool
  | .begin | .submit _ _ | .submitted _ _ | .pull _ _ _ _ | .pulled _ _ _ _ => true
  | .watch _ | .stop _ _ | .stopping _ _ => false

/-- How a run ends by the result of a pull command, `none` when it goes on. -/
def exitStatus? : Except Failure Returns → Option RunStatus
  | .ok returns => returns.lifecycle.terminal?
  | .error _ => some .error

variable (p : Player) (s : Script)

/-- The run has started under this id, after these calls. -/
def Started (runId : Int) (plays : List Nat) : Prop :=
  ∃ attempts, p.retry.Ends s.plays attempts (.ok (.started runId)) ∧
    plays = List.replicate attempts 0

/-- The polls that a run has made so far lead to this request. -/
abbrev Leads (runId : Int) (polls : List Poll) (request : Request) : Prop :=
  Course p.retry p.timing.pageSize s.pulls runId polls request

/-- The pull command ends with this result, when so many pulls came before it. -/
abbrev PullEnds (before : Nat) (request : Request) (attempts : Nat)
    (result : Except Failure Returns) : Prop :=
  p.retry.Ends (pullResultsFrom s.pulls before request) attempts result

/-- A pull command is due: after these calls, at this time and for this request. -/
inductive Due (runId : Int) : PullKind → List (Nat × Request) → Nat → Request → Prop
  | poll {polls : List Poll} {request : Request} : Leads p s runId polls request →
      Due runId .poll (Poll.log p.timing 0 polls) (Poll.elapsed p.timing polls) request
  | drain {polls : List Poll} {request : Request} {attempts : Nat} {returns : Returns} :
      Leads p s runId polls request →
      PullEnds p s (Poll.calls polls) request attempts (.ok returns) →
      returns.status = some "NormalExit" →
      Due runId .drain
        (Poll.log p.timing 0 polls ++
          List.replicate attempts (Poll.elapsed p.timing polls, request))
        (Poll.elapsed p.timing polls) (request.drain returns p.grids)

/-- Where the leading task stands when it makes its step at a time, after these calls. -/
inductive Stage (plays : List Nat) (pulls : List (Nat × Request)) : Nat → Task → Prop
  | begin : plays = [] → pulls = [] → Stage plays pulls 0 .begin
  | submit {made : Nat} {attempt : UInt32} : p.retry.Reaches s.plays made attempt →
      plays = List.replicate made 0 → pulls = [] → Stage plays pulls 0 (.submit 0 attempt)
  | submitted {made : Nat} {attempt : UInt32} : p.retry.Reaches s.plays made attempt →
      plays = List.replicate (made + 1) 0 → pulls = [] → Stage plays pulls 0 (.submitted 0 attempt)
  | pull {runId : Int} {kind : PullKind} {before : List (Nat × Request)} {now : Nat}
      {request : Request} {made : Nat} {attempt : UInt32} :
      Started p s runId plays → Due p s runId kind before now request →
      p.retry.Reaches (pullResultsFrom s.pulls before.length request) made attempt →
      pulls = before ++ List.replicate made (now, request) →
      Stage plays pulls now (.pull ⟨0, runId⟩ kind request attempt)
  | pulled {runId : Int} {kind : PullKind} {before : List (Nat × Request)} {now : Nat}
      {request : Request} {made : Nat} {attempt : UInt32} :
      Started p s runId plays → Due p s runId kind before now request →
      p.retry.Reaches (pullResultsFrom s.pulls before.length request) made attempt →
      pulls = before ++ List.replicate (made + 1) (now, request) →
      Stage plays pulls now (.pulled ⟨0, runId⟩ kind request attempt)

/-- How a run came to its end, after these calls. -/
inductive Over (plays : List Nat) (pulls : List (Nat × Request)) : Fate → Prop
  /-- The count of attempts ran over, since some of them failed. -/
  | crash {e : Failure} :
      (∃ n, s.plays n = .error e) ∨ (∃ n request, s.pulls n request = .error e) →
      Over plays pulls .crash
  /-- The strategy was not started. -/
  | refused {attempts : Nat} {answer : Except Failure PlayAnswer} :
      p.retry.Ends s.plays attempts answer → (∀ runId, answer ≠ .ok (.started runId)) →
      plays = List.replicate attempts 0 → pulls = [] →
      Over plays pulls (.outcome (.ofMillis .error 0))
  /-- A poll ended it without a normal exit. -/
  | interrupted {runId : Int} {polls : List Poll} {request : Request} {attempts : Nat}
      {result : Except Failure Returns} {status : RunStatus} :
      Started p s runId plays → Leads p s runId polls request →
      PullEnds p s (Poll.calls polls) request attempts result →
      exitStatus? result = some status → status ≠ .success →
      pulls = Poll.log p.timing 0 polls ++
        List.replicate attempts (Poll.elapsed p.timing polls, request) →
      Over plays pulls (.outcome (.ofMillis status (Poll.elapsed p.timing polls)))
  /-- After a normal exit everything that was left has been asked for. -/
  | drained {runId : Int} {before : List (Nat × Request)} {now : Nat} {request : Request}
      {attempts : Nat} {result : Except Failure Returns} :
      Started p s runId plays → Due p s runId .drain before now request →
      PullEnds p s before.length request attempts result →
      pulls = before ++ List.replicate attempts (now, request) →
      Over plays pulls (.outcome (.ofMillis .success now))

variable {p s} {w : Calls} {made now : Nat} {attempt : UInt32}

/-! ## Steps of the leading task -/

theorem Player.afterSubmission_world (p : Player) (now started : Nat) (attempt : UInt32) (w : Calls)
    (answer : Except Failure PlayAnswer) :
    (p.afterSubmission now started attempt w answer).world = w := by
  fun_cases Player.afterSubmission p now started attempt w answer <;> rfl

theorem Player.afterPull_world (p : Player) (now : Nat) (run : Accepted) (kind : PullKind)
    (request : Request) (attempt : UInt32) (w : Calls) (answer : Except Failure Returns) :
    (p.afterPull now run kind request attempt w answer).world = w := by
  fun_cases Player.afterPull p now run kind request attempt w answer with
  | case1 => fun_cases Player.afterPoll <;> rfl
  | _ => rfl

/-- A step of the leading task at `now` that leads to a stage or to the end of the run. -/
abbrev Keeps (p : Player) (s : Script) (now : Nat) (move : Move Calls Task) : Prop :=
  move.KeepsLead Task.leads (fun now w => Stage p s w.plays w.pulls now)
    (fun w => Over p s w.plays w.pulls) now

theorem watchers_aside (p : Player) (run : Accepted) : ∀ y ∈ p.watchers run, y.leads = false := by
  unfold Player.watchers
  split
  · exact nofun
  · exact List.forall_mem_singleton.2 rfl

/-- The step that reads the answer to a play call. -/
theorem keeps_afterSubmission (hreach : p.retry.Reaches s.plays made attempt)
    (hplays : w.plays = List.replicate (made + 1) 0) (hpulls : w.pulls = []) :
    Keeps p s 0 (p.afterSubmission 0 0 attempt w (s.plays made)) := by
  cases hanswer : s.plays made with
  | ok answer =>
    have hends := hreach.ends_of_ok hanswer
    cases answer with
    | started runId =>
      exact ⟨watchers_aside p _, .pull ⟨made + 1, hends, hplays⟩ (.poll .first)
        (Policy.Reaches.first _ _) hpulls⟩
    | refused reason => exact ⟨nofun, .refused hends nofun hplays hpulls⟩
  | error e =>
    unfold Player.afterSubmission
    dsimp only
    cases hafter : p.retry.after .transport attempt e with
    | again next => exact ⟨nofun, .submit (hreach.again hanswer hafter) hplays hpulls⟩
    | giveUp => exact ⟨nofun, .refused (hreach.ends_of_giveUp hanswer hafter) nofun hplays hpulls⟩
    | overflow => exact ⟨nofun, .crash (.inl ⟨_, hanswer⟩)⟩

/-- The step after a pull command whose results came in while the run was followed. -/
theorem keeps_afterPoll {runId : Int} {polls : List Poll} {request : Request} {returns : Returns}
    {attempts : Nat} (hstarted : Started p s runId w.plays) (hleads : Leads p s runId polls request)
    (hends : PullEnds p s (Poll.calls polls) request attempts (.ok returns))
    (hpulls : w.pulls = Poll.log p.timing 0 polls ++
      List.replicate attempts (Poll.elapsed p.timing polls, request)) :
    Keeps p s (Poll.elapsed p.timing polls)
      (p.afterPoll (Poll.elapsed p.timing polls) ⟨0, runId⟩ request returns w) := by
  unfold Player.afterPoll
  cases hexit : returns.lifecycle.terminal? with
  | none =>
    have hnext := hleads.poll hends (Returns.terminal?_eq_none.1 hexit)
    have hdelay : (if request.next returns = request then p.timing.idleDelay
        else p.timing.activeDelay) = Poll.delay p.timing ⟨request, attempts, returns⟩ :=
      if_congr Request.next_eq_self_iff rfl rfl
    have hlog : w.pulls = Poll.log p.timing 0 (polls ++ [⟨request, attempts, returns⟩]) ++ [] := by
      rw [Poll.log_concat, Nat.zero_add, List.append_nil]
      exact hpulls
    -- The poll is one more of the course, and the next one is due after its delay.
    have hstage := Stage.pull hstarted (.poll hnext) (Policy.Reaches.first _ _) hlog
    rw [Poll.elapsed_concat] at hstage
    refine ⟨nofun, ?_⟩
    dsimp only
    rw [hdelay]
    exact hstage
  | some status =>
    cases status with
    | success =>
      refine ⟨nofun, .pull hstarted (.drain hleads hends (Returns.terminal?_eq_success.1 hexit))
        (Policy.Reaches.first _ _) ?_⟩
      exact hpulls.trans (List.append_nil _).symm
    | error | canceled =>
      exact ⟨nofun, .interrupted hstarted hleads hends hexit nofun hpulls⟩

/-- The step that reads the answer to a pull call. -/
theorem keeps_afterPull {runId : Int} {kind : PullKind} {before : List (Nat × Request)}
    {request : Request} (hstarted : Started p s runId w.plays)
    (hdue : Due p s runId kind before now request)
    (hreach : p.retry.Reaches (pullResultsFrom s.pulls before.length request) made attempt)
    (hpulls : w.pulls = before ++ List.replicate (made + 1) (now, request)) :
    Keeps p s now (p.afterPull now ⟨0, runId⟩ kind request attempt w
      (s.pulls (before.length + made) request)) := by
  cases hanswer : s.pulls (before.length + made) request with
  | ok returns =>
    have hends := hreach.ends_of_ok hanswer
    cases hdue with
    | poll hleads =>
      rw [Poll.length_log] at hends
      exact keeps_afterPoll hstarted hleads hends hpulls
    | drain hleads hexit hnormal =>
      exact ⟨nofun, .drained hstarted (.drain hleads hexit hnormal) hends hpulls⟩
  | error e =>
    unfold Player.afterPull
    dsimp only
    cases hafter : p.retry.after .transport attempt e with
    | again next => exact ⟨nofun, .pull hstarted hdue (hreach.again hanswer hafter) hpulls⟩
    | giveUp =>
      have hends := hreach.ends_of_giveUp hanswer hafter
      cases hdue with
      | poll hleads =>
        rw [Poll.length_log] at hends
        exact ⟨nofun, .interrupted hstarted hleads hends rfl nofun hpulls⟩
      | drain hleads hexit hnormal =>
        exact ⟨nofun, .drained hstarted (.drain hleads hexit hnormal) hends hpulls⟩
    | overflow => exact ⟨nofun, .crash (.inr ⟨_, _, hanswer⟩)⟩

/-- A step of the leading task. -/
theorem keeps_step {x : Task} (h : Stage p s w.plays w.pulls now x) :
    Keeps p s now (p.step s.gateway now w x) := by
  cases h with
  | begin hplays hpulls => exact ⟨nofun, .submit (Policy.Reaches.first _ _) hplays hpulls⟩
  | submit hreach hplays hpulls =>
    refine ⟨nofun, .submitted hreach ?_ hpulls⟩
    show w.plays ++ [0] = _
    rw [hplays, List.replicate_succ']
  | @submitted made attempt hreach hplays hpulls =>
    have hanswer : s.plays (w.plays.length - 1) = s.plays made := by
      rw [hplays, List.length_replicate, Nat.add_sub_cancel]
    show Keeps p s 0 (p.afterSubmission 0 0 attempt w (s.plays (w.plays.length - 1)))
    rw [hanswer]
    exact keeps_afterSubmission hreach hplays hpulls
  | @pull runId kind before _ request made attempt hstarted hdue hreach hpulls =>
    have hpulled : w.pulls ++ [(now, request)] =
        before ++ List.replicate (made + 1) (now, request) := by
      rw [hpulls, List.append_assoc, List.replicate_succ']
    have hstage : Stage p s w.plays (w.pulls ++ [(now, request)]) now
        (.pulled ⟨0, runId⟩ kind request attempt) := .pulled hstarted hdue hreach hpulled
    exact ⟨nofun, hstage⟩
  | @pulled runId kind before _ request made attempt hstarted hdue hreach hpulls =>
    have hanswer :
        s.pulls (w.pulls.length - 1) request = s.pulls (before.length + made) request := by
      rw [hpulls, List.length_append, List.length_replicate, ← Nat.add_assoc, Nat.add_sub_cancel]
    show Keeps p s now (p.afterPull now ⟨0, runId⟩ kind request attempt w
      (s.pulls (w.pulls.length - 1) request))
    rw [hanswer]
    exact keeps_afterPull hstarted hdue hreach hpulls

/-! ## All steps -/

/-- A step of the watchdog or of a stop, over a server with these delays. -/
theorem step_aside_delayed (p : Player) (s : Script) (d : Rehearsal.ScriptedServer.Delays)
    (now : Nat) (w : Calls) {x : Task} (h : x.leads = false) :
    (p.step (s.delayed d) now w x).StaysAside Task.leads ∧
    (p.step (s.delayed d) now w x).world.plays = w.plays ∧
    (p.step (s.delayed d) now w x).world.pulls = w.pulls := by
  cases x with
  | begin | submit | submitted | pull | pulled => cases h
  | watch run =>
    unfold Player.step
    dsimp only
    split
    · exact ⟨⟨List.forall_mem_singleton.2 rfl, trivial⟩, rfl, rfl⟩
    · exact ⟨⟨nofun, rfl⟩, rfl, rfl⟩
  | stop runId attempt => exact ⟨⟨nofun, rfl⟩, rfl, rfl⟩
  | stopping runId attempt =>
    unfold Player.step Player.afterStop
    dsimp only [Script.delayed, Script.gateway]
    cases s.stops (w.stops.length - 1) with
    | ok => exact ⟨⟨nofun, trivial⟩, rfl, rfl⟩
    | error e =>
      dsimp only
      cases p.retry.after .transport attempt e with
      | again next => exact ⟨⟨nofun, rfl⟩, rfl, rfl⟩
      | giveUp | overflow => exact ⟨⟨nofun, trivial⟩, rfl, rfl⟩

/-- The same over the server that answers at once. -/
theorem step_aside (p : Player) (s : Script) (now : Nat) (w : Calls) {x : Task}
    (h : x.leads = false) :
    (p.step s.gateway now w x).StaysAside Task.leads ∧
    (p.step s.gateway now w x).world.plays = w.plays ∧
    (p.step s.gateway now w x).world.pulls = w.pulls :=
  step_aside_delayed p s ⟨0, 0, 0⟩ now w h

/-- The runs of a player are led by the task that submits and pulls. -/
theorem Player.led (p : Player) (s : Script) :
    (p.machine s.gateway).Led Task.leads (fun now w => Stage p s w.plays w.pulls now)
      (fun w => Over p s w.plays w.pulls) where
  leads h := by cases h <;> rfl
  leading h := keeps_step h
  aside now w _ h := (step_aside p s now w h).1
  keeps now w _ h _ _ hstage := by
    obtain ⟨-, hplays, hpulls⟩ := step_aside p s now w h
    exact hplays.symm ▸ hpulls.symm ▸ hstage
  keeps_done now w _ h _ hover := by
    obtain ⟨-, hplays, hpulls⟩ := step_aside p s now w h
    exact hplays.symm ▸ hpulls.symm ▸ hover

end LoadProbe
