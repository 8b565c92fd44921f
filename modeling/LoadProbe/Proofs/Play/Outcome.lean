import LoadProbe.Proofs.Play.Stage

/-!
# The outcome of a run

A run that ends with an outcome is classified by the answers to its plays and pulls alone
(`Script.play_classified`): a strategy that was not started is an error after no time, and otherwise
the first pull command that fails or brings an exit decides. The deadline, the grids and the answers
to stops have no part in it, since what classifies a run settles one outcome at most
(`Settles.unique`).
-/

namespace LoadProbe

open Facade Feed Pass

/-! ## The result that ends a run -/

/-- The pull command brought this lifecycle text. -/
def Reports (result : Except Failure Returns) (text : String) : Prop :=
  ∃ returns, result = .ok returns ∧ returns.status = some text

section

variable {result : Except Failure Returns} {status : RunStatus}

theorem endsRun_of_exitStatus? (h : exitStatus? result = some status) : EndsRun result := by
  rintro returns rfl
  by_contra hruns
  rw [exitStatus?, Returns.terminal?_eq_none.2 hruns] at h
  cases h

theorem exitStatus?_eq_success :
    exitStatus? result = some .success ↔ Reports result "NormalExit" := by
  cases result with
  | ok returns =>
    rw [exitStatus?, Returns.terminal?_eq_success]
    exact ⟨fun h => ⟨returns, rfl, h⟩, fun ⟨_, heq, h⟩ => Except.ok.inj heq ▸ h⟩
  | error e => exact ⟨nofun, nofun⟩

theorem exitStatus?_eq_canceled :
    exitStatus? result = some .canceled ↔ Reports result "CancelExit" := by
  cases result with
  | ok returns =>
    rw [exitStatus?, Returns.terminal?_eq_canceled]
    exact ⟨fun h => ⟨returns, rfl, h⟩, fun ⟨_, heq, h⟩ => Except.ok.inj heq ▸ h⟩
  | error e => exact ⟨nofun, nofun⟩

end

/-! ## One outcome -/

/-- The answers to plays and pulls settle this outcome. -/
inductive Settles (retry : Policy) (timing : Timing) (plays : Nat → Except Failure PlayAnswer)
    (pulls : Nat → Request → Except Failure Returns) : Outcome → Prop
  | refused {attempts : Nat} {answer : Except Failure PlayAnswer} :
      retry.Ends plays attempts answer → (∀ runId, answer ≠ .ok (.started runId)) →
      Settles retry timing plays pulls (.ofMillis .error 0)
  | exited {started attempts : Nat} {runId : Int} {polls : List Poll} {request : Request}
      {result : Except Failure Returns} {status : RunStatus} :
      retry.Ends plays started (.ok (.started runId)) →
      Course retry timing.pageSize pulls runId polls request →
      retry.Ends (pullResultsFrom pulls (Poll.calls polls) request) attempts result →
      exitStatus? result = some status →
      Settles retry timing plays pulls (.ofMillis status (Poll.elapsed timing polls))

theorem Settles.unique {retry : Policy} {timing : Timing} {plays : Nat → Except Failure PlayAnswer}
    {pulls : Nat → Request → Except Failure Returns} {o o' : Outcome}
    (h : Settles retry timing plays pulls o) (h' : Settles retry timing plays pulls o') :
    o = o' := by
  cases h with
  | refused hends hnot =>
    cases h' with
    | refused => rfl
    | exited hstarted => exact absurd (hends.unique hstarted).2 (hnot _)
  | exited hstarted hcourse hends hexit =>
    cases h' with
    | refused hends' hnot => exact absurd (hends'.unique hstarted).2 (hnot _)
    | exited hstarted' hcourse' hends' hexit' =>
      cases (hstarted.unique hstarted').2
      obtain ⟨rfl, rfl⟩ := hcourse.end_unique hends (endsRun_of_exitStatus? hexit) hcourse' hends'
        (endsRun_of_exitStatus? hexit')
      rw [Option.some.inj (hexit.symm.trans hexit')]

/-- A run that ends settles its outcome. -/
theorem Over.settles {p : Player} {s : Script} {plays : List Nat} {pulls : List (Nat × Request)}
    {o : Outcome} (h : Over p s plays pulls (.outcome o)) :
    Settles p.retry p.timing s.plays s.pulls o := by
  cases h with
  | refused hends hnot => exact .refused hends hnot
  | interrupted hstarted hleads hends hexit =>
    obtain ⟨_, hstarted, -⟩ := hstarted
    exact .exited hstarted hleads hends hexit
  | drained hstarted hdue =>
    obtain ⟨_, hstarted, -⟩ := hstarted
    cases hdue with
    | drain hleads hends hnormal =>
      exact .exited hstarted hleads hends (exitStatus?_eq_success.2 ⟨_, rfl, hnormal⟩)

/-! ## The whole run -/

/-- What becomes of a run that has started under an id: it makes these pull calls and ends with this
outcome. Some polls go on, and `result` is that of the first pull command that fails or brings an
exit. A normal exit is followed by one more pull command, whatever comes of it. -/
def Polled (s : Script) (retry : Policy) (timing : Timing) (grids : Bool) (runId : Int)
    (pulls : List (Nat × Request)) (o : Outcome) : Prop :=
  ∃ polls request attempts result,
    Course retry timing.pageSize s.pulls runId polls request ∧
    retry.Ends (pullResultsFrom s.pulls (Poll.calls polls) request) attempts result ∧
    EndsRun result ∧
    let time := (polls.map fun q =>
      if q.request.Unmoved q.returns then timing.idleDelay else timing.activeDelay).sum
    let asked := Poll.log timing 0 polls ++ List.replicate attempts (time, request)
    o.millis = time.toUInt64 ∧
    (o.status = .success ↔ Reports result "NormalExit") ∧
    (o.status = .canceled ↔ Reports result "CancelExit") ∧
    (¬Reports result "NormalExit" → pulls = asked) ∧
    ∀ returns, result = .ok returns → returns.status = some "NormalExit" →
      ∃ more brought,
        retry.Ends (pullResultsFrom s.pulls asked.length (request.drain returns grids)) more
          brought ∧
        pulls = asked ++ List.replicate more (time, request.drain returns grids)

section

variable {p : Player} {s : Script} {plays : List Nat} {pulls : List (Nat × Request)} {o : Outcome}

/-- The run has made these calls when it is over. -/
theorem Over.classified (h : Over p s plays pulls (.outcome o)) :
    ∃ attempts answer, p.retry.Ends s.plays attempts answer ∧
      plays = List.replicate attempts 0 ∧
      ((∀ runId, answer ≠ .ok (.started runId)) → o = .ofMillis .error 0 ∧ pulls = []) ∧
      ∀ runId, answer = .ok (.started runId) →
        Polled s p.retry p.timing p.grids runId pulls o := by
  cases h with
  | @refused attempts answer hends hnot hplays hpulls =>
    exact ⟨attempts, answer, hends, hplays, fun _ => ⟨rfl, hpulls⟩,
      fun runId h => absurd h (hnot runId)⟩
  | @interrupted _ polls request attempts result status hstarted hleads hends hexit hne hpulls =>
    obtain ⟨started, hends', hplays⟩ := hstarted
    refine ⟨started, .ok (.started _), hends', hplays, fun hnot => absurd rfl (hnot _), ?_⟩
    rintro _ ⟨⟩
    have hnormal : ¬Reports result "NormalExit" := fun h =>
      hne (Option.some.inj (hexit.symm.trans (exitStatus?_eq_success.2 h)))
    refine ⟨polls, request, attempts, result, hleads, hends, endsRun_of_exitStatus? hexit,
      Outcome.ofMillis_millis _ _, iff_of_false hne hnormal, ?_, fun _ => hpulls, ?_⟩
    · rw [← exitStatus?_eq_canceled, hexit, Option.some.injEq]
      rfl
    · intro returns hresult hstatus
      exact absurd ⟨returns, hresult, hstatus⟩ hnormal
  | @drained _ before now request' attempts' result' hstarted hdue hends' hpulls =>
    obtain ⟨started, hstarted, hplays⟩ := hstarted
    refine ⟨started, .ok (.started _), hstarted, hplays, fun hnot => absurd rfl (hnot _), ?_⟩
    rintro _ ⟨⟩
    cases hdue with
    | @drain polls request attempts returns hleads hends hnormal =>
      have hreports : Reports (.ok returns) "NormalExit" := ⟨returns, rfl, hnormal⟩
      have hexit := exitStatus?_eq_success.2 hreports
      refine ⟨polls, request, attempts, .ok returns, hleads, hends, endsRun_of_exitStatus? hexit,
        Outcome.ofMillis_millis _ _, iff_of_true rfl hreports, ?_,
        fun hnot => absurd hreports hnot, ?_⟩
      · rw [← exitStatus?_eq_canceled, hexit]
        exact iff_of_false nofun nofun
      · rintro _ ⟨⟩ -
        exact ⟨attempts', result', hends', hpulls⟩

/-- A run that is over makes no play and no pull call: a stop that goes on is all that is left. -/
theorem Player.led_silent (p : Player) (s : Script) (plays : List Nat)
    (pulls : List (Nat × Request)) :
    (p.machine s.gateway).Led Task.leads (fun _ _ _ => False)
      (fun w _ => w.plays = plays ∧ w.pulls = pulls) where
  leads := False.elim
  leading := False.elim
  aside now w _ h := (step_aside p s now w h).1
  keeps _ _ _ _ _ _ h := h.elim
  keeps_done now w _ h _ hsame := by
    obtain ⟨-, hplays, hpulls⟩ := step_aside p s now w h
    exact ⟨hplays.trans hsame.1, hpulls.trans hsame.2⟩

end

namespace Script

variable {s : Script} {p : Player} {fuel : Nat} {fate : Fate}

/-- However far a run has come, its leading task stands somewhere, or the run is over. -/
theorem play_stands (s : Script) (p : Player) (fuel : Nat) :
    (s.play p fuel).1.Stands Task.leads (fun now w => Stage p s w.plays w.pulls now)
      (fun w => Over p s w.plays w.pulls) (fates (s.play p fuel).2) ∧
    InOrder (s.play p fuel).1.now (s.play p fuel).1.agenda := by
  have hfirst : Stage p s [] [] 0 .begin := .begin rfl rfl
  obtain ⟨hstands, horder⟩ := Timeline.Stands.launch (p.led s) (w := ⟨[], [], []⟩) hfirst
  exact hstands.untilEnded (p.led s) fuel 1 horder

theorem over_of_fates (h : fates (s.play p fuel).2 = [fate]) :
    Over p s (s.play p fuel).1.world.plays (s.play p fuel).1.world.pulls fate := by
  have hstands := (play_stands s p fuel).1
  rw [h] at hstands
  cases hstands with
  | ended _ hover => exact hover

/-- After its end a run makes no play and no pull call any more. -/
theorem play_silent (h : fates (s.play p fuel).2 = [fate]) (last more : Nat) :
    let t := (s.play p fuel).1
    let later := (t.untilTime (p.machine s.gateway) last more).1
    later.world.plays = t.world.plays ∧ later.world.pulls = t.world.pulls := by
  intro t later
  obtain ⟨hstands, horder⟩ := play_stands s p fuel
  rw [h] at hstands
  cases hstands with
  | ended hleads _ =>
    -- No task leads any more, so the calls can be carried on in the place of what is over.
    have hstill : t.Stands Task.leads (fun _ _ _ => False)
        (fun w _ => w.plays = t.world.plays ∧ w.pulls = t.world.pulls) [fate] :=
      .ended hleads ⟨rfl, rfl⟩
    have hlater := hstill.untilTime (p.led_silent s _ _) last more horder
    generalize [fate] ++ fates _ = ended at hlater
    cases hlater with
    | running _ _ hfalse => exact hfalse.elim
    | ended _ hsame => exact hsame

/-- A run that ends with an outcome is classified by the answers to its plays and pulls. Without a
start it is an error after no time that has pulled nothing. After a start it polls until a pull
command fails or brings an exit, 5 s after a poll that moved no page and 1 s after any other one;
then only a normal exit is a success and is followed by one more pull command. The run makes no
other calls, also later. The deadline, the grids and the answers to stops have no part in the
outcome. -/
theorem play_classified (s : Script) (retry : Policy) (deadline : Nat) (grids : Bool) (fuel : Nat)
    (o : Outcome)
    (hended : fates (s.play ⟨deadline, grids, .standard, retry⟩ fuel).2 = [.outcome o]) :
    let p : Player := ⟨deadline, grids, .standard, retry⟩
    let t := (s.play p fuel).1
    (∃ attempts answer, retry.Ends s.plays attempts answer ∧
      t.world.plays = List.replicate attempts 0 ∧
      ((∀ runId, answer ≠ .ok (.started runId)) → o = .ofMillis .error 0 ∧ t.world.pulls = []) ∧
      ∀ runId, answer = .ok (.started runId) →
        Polled s retry .standard grids runId t.world.pulls o) ∧
    (∀ last more,
      let later := (t.untilTime (p.machine s.gateway) last more).1
      later.world.plays = t.world.plays ∧ later.world.pulls = t.world.pulls) ∧
    ∀ deadline' grids' stops fuel' o',
      fates (Script.play { s with stops } ⟨deadline', grids', .standard, retry⟩ fuel').2 =
        [.outcome o'] → o' = o := by
  intro p t
  have hover := over_of_fates hended
  refine ⟨hover.classified, play_silent hended, fun deadline' grids' stops fuel' o' hended' => ?_⟩
  exact (over_of_fates hended').settles.unique hover.settles

/-- A server that loses the first play and the second pull. It reports no move, a move and a normal
exit, and fails afterwards; a stop is lost once. -/
def stumbling : Script where
  plays
    | 0 => .error .transport
    | _ => .ok (.started 7)
  pulls n _ := match n with
    | 0 => .ok .none
    | 1 => .error .transport
    | 2 => .ok ⟨none, Table.empty.insert .trades ⟨some 3, []⟩⟩
    | 3 => .ok ⟨some "NormalExit", .empty⟩
    | _ => .error (.api 502 "bad gateway")
  stops
    | 0 => .error .transport
    | _ => .ok ()

/-- A run on this server is a success after 6 s although it is stopped after 5 s and its last pull
fails, and it stays one when it is not watched. -/
theorem play_classified_stumbling :
    let ended (deadline : Nat) := fates (stumbling.play ⟨deadline, true, .standard, .forever⟩ 40).2
    ended 3000 = [.outcome ⟨.success, 6000⟩] ∧
      ∀ o, ended 0 = [.outcome o] → o = ⟨.success, 6000⟩ := by
  intro ended
  have hwatched : ended 3000 = [.outcome ⟨.success, 6000⟩] := by decide +kernel
  obtain ⟨-, -, hunique⟩ := play_classified stumbling .forever 3000 true 40 _ hwatched
  exact ⟨hwatched, fun o h => hunique 0 true stumbling.stops 40 o h⟩

end Script

end LoadProbe
