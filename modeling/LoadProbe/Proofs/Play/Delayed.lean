import LoadProbe.Proofs.Play.Asked
import LoadProbe.Proofs.Play.Stage

/-!
# A run over a server that takes its time

Where the leading task of a run stands when the calls of each command take some time: until the run
id is known it submits the strategy (`Submitting`), and then it pulls (`Pulling`), each request the
one that is to be asked for after those before (`Asked`) and sent when all of them have been
answered. `submitting_step` and `pulling_step` say all that its steps can do. So every pull request
of a run is well formed, whatever is answered (`Script.pulls_asked`).
-/

namespace LoadProbe

open Facade Feed Pass
open Rehearsal.ScriptedServer (Delays)

variable (p : Player) (s : Script) (d : Delays)

/-- When the calls of a command are sent that go out one after the other, from its start on. -/
def sendTimes (delay calls : Nat) : List Nat :=
  (List.range calls).map (· * delay)

/-- No submission starts the run. -/
def NeverStarts : Prop :=
  ∀ attempts runId, ¬p.retry.Ends s.plays attempts (.ok (.started runId))

/-- These submissions brought the run its id, which is known after so many milliseconds. -/
def Assigned (runId : Int) (known : Nat) (plays : List Nat) : Prop :=
  ∃ attempts, p.retry.Ends s.plays attempts (.ok (.started runId)) ∧
    known = attempts * d.play ∧ plays = sendTimes d.play attempts

/-- Where the leading task stands while the strategy is submitted. -/
inductive Submitting (plays : List Nat) (pulls : List (Nat × Request)) : Nat → Task → Prop
  | begin : plays = [] → pulls = [] → Submitting plays pulls 0 .begin
  | submit {made : Nat} {attempt : UInt32} : p.retry.Reaches s.plays made attempt →
      plays = sendTimes d.play made → pulls = [] →
      Submitting plays pulls (made * d.play) (.submit 0 attempt)
  | submitted {made : Nat} {attempt : UInt32} : p.retry.Reaches s.plays made attempt →
      plays = sendTimes d.play (made + 1) → pulls = [] →
      Submitting plays pulls ((made + 1) * d.play) (.submitted 0 attempt)

/-- The run asks for this after these pulls. -/
abbrev AsksFor (runId : Int) (pulls : List (Nat × Request)) (kind : PullKind)
    (request : Request) : Prop :=
  Asked p.timing.pageSize p.grids s.pulls runId (pulls.map Prod.snd) kind request

/-- The latest pull of these asks for `request` and is answered at `now`; it was sent when those
before had been answered. -/
def Sent (runId : Int) (pulls : List (Nat × Request)) (now : Nat) (kind : PullKind)
    (request : Request) : Prop :=
  ∃ before sent, pulls = before ++ [(sent, request)] ∧ AsksFor p s runId before kind request ∧
    (∀ call ∈ before, call.1 + d.pull ≤ sent) ∧ now = sent + d.pull

/-- Where the leading task stands while the feeds of a run are pulled. -/
inductive Pulling (runId : Int) (pulls : List (Nat × Request)) : Nat → Task → Prop
  | pull {now : Nat} {kind : PullKind} {request : Request} {attempt : UInt32} :
      AsksFor p s runId pulls kind request → (∀ call ∈ pulls, call.1 + d.pull ≤ now) →
      Pulling runId pulls now (.pull ⟨0, runId⟩ kind request attempt)
  | pulled {now : Nat} {kind : PullKind} {request : Request} {attempt : UInt32} :
      Sent p s d runId pulls now kind request →
      Pulling runId pulls now (.pulled ⟨0, runId⟩ kind request attempt)

variable {p s d} {w : Calls} {now made attempts known : Nat} {attempt : UInt32} {runId : Int}

theorem length_sendTimes (delay calls : Nat) : (sendTimes delay calls).length = calls := by
  rw [sendTimes, List.length_map, List.length_range]

theorem sendTimes_succ (delay calls : Nat) :
    sendTimes delay (calls + 1) = sendTimes delay calls ++ [calls * delay] := by
  rw [sendTimes, List.range_succ, List.map_append]
  rfl

/-- Each of the pulls before was asked for as well. -/
theorem AsksFor.of_append {before after : List (Nat × Request)} {call : Nat × Request}
    {kind : PullKind} {request : Request}
    (h : AsksFor p s runId (before ++ call :: after) kind request) :
    ∃ kind', AsksFor p s runId before kind' call.2 := by
  have hsplit : (before ++ call :: after).map Prod.snd =
      before.map Prod.snd ++ call.2 :: after.map Prod.snd := by
    rw [List.map_append, List.map_cons]
  exact Asked.of_append h hsplit

/-- A run that gets an id is not being submitted after its id is known. -/
theorem Submitting.due_le {plays : List Nat} {pulls : List (Nat × Request)} {x : Task}
    (h : Submitting p s d plays pulls now x)
    (hends : p.retry.Ends s.plays attempts (.ok (.started runId))) :
    pulls = [] ∧ now ≤ attempts * d.play := by
  cases h with
  | begin _ hpulls => exact ⟨hpulls, Nat.zero_le _⟩
  | submit hreach _ hpulls =>
    exact ⟨hpulls, Nat.mul_le_mul_right _ (Nat.le_of_lt (hreach.lt_of_ends hends))⟩
  | submitted hreach _ hpulls =>
    exact ⟨hpulls, Nat.mul_le_mul_right _ (hreach.lt_of_ends hends)⟩

namespace Sent

variable {pulls : List (Nat × Request)} {kind : PullKind} {request : Request}

theorem answered (h : Sent p s d runId pulls now kind request) :
    ∀ call ∈ pulls, call.1 + d.pull ≤ now := by
  obtain ⟨before, sent, rfl, -, hbefore, rfl⟩ := h
  intro call hcall
  rcases List.mem_append.1 hcall with hcall | hcall
  · exact Nat.le_trans (hbefore call hcall) (Nat.le_add_right sent _)
  · obtain rfl := List.mem_singleton.1 hcall
    exact Nat.le_refl _

/-- The latest pull is answered now. -/
theorem exists_last (h : Sent p s d runId pulls now kind request) :
    ∃ call ∈ pulls, call.1 + d.pull = now := by
  obtain ⟨before, sent, rfl, -, -, rfl⟩ := h
  exact ⟨_, List.mem_append_right before List.mem_cons_self, rfl⟩

/-- Each of the pulls was asked for. -/
theorem asked (h : Sent p s d runId pulls now kind request) {before after : List (Nat × Request)}
    {call : Nat × Request} (hsplit : pulls = before ++ call :: after) :
    ∃ kind', AsksFor p s runId before kind' call.2 := by
  obtain ⟨earlier, sent, rfl, hasked, -, -⟩ := h
  rcases List.eq_nil_or_concat after with rfl | ⟨after, last, rfl⟩
  · obtain ⟨rfl, hlast⟩ := List.append_inj' hsplit rfl
    cases hlast
    exact ⟨kind, hasked⟩
  · rw [List.concat_eq_append, ← List.cons_append, ← List.append_assoc] at hsplit
    rw [(List.append_inj' hsplit rfl).1] at hasked
    exact AsksFor.of_append hasked

end Sent

/-! ## Steps -/

/-- What a step does next while the strategy is submitted: it goes on submitting, or the run ends
without an id and without a pull, or its id is known now, its watchdog is started, and it pulls. -/
def KeepsSubmitting (p : Player) (s : Script) (d : Delays) (now : Nat) (move : Move Calls Task) :
    Prop :=
  (move.started = [] ∧ move.next.Meets
    (fun millis => Submitting p s d move.world.plays move.world.pulls (now + millis))
    (fun _ => NeverStarts p s ∧ move.world.pulls = []) False) ∨
  ∃ runId y, Assigned p s d runId now move.world.plays ∧
    move.started = p.watchers ⟨0, runId⟩ ∧ move.next = .pause 0 y ∧
    Pulling p s d runId move.world.pulls now y

/-- The step after the answer to a submission. -/
theorem keepsSubmitting_afterSubmission (hreach : p.retry.Reaches s.plays made attempt)
    (hplays : w.plays = sendTimes d.play (made + 1)) (hpulls : w.pulls = []) :
    KeepsSubmitting p s d ((made + 1) * d.play)
      (p.afterSubmission ((made + 1) * d.play) 0 attempt w (s.plays made)) := by
  cases hplay : s.plays made with
  | ok answer =>
    have hends := hreach.ends_of_ok hplay
    cases answer with
    | started runId =>
      have hfirst : AsksFor p s runId w.pulls .poll (.initial runId p.timing.pageSize) := by
        rw [hpulls]
        exact .first (Request.polls_initial runId _)
      have hnone : ∀ call ∈ w.pulls, call.1 + d.pull ≤ (made + 1) * d.play := by
        rw [hpulls]
        exact nofun
      exact .inr ⟨runId, _, ⟨made + 1, hends, rfl, hplays⟩, rfl, rfl, .pull hfirst hnone⟩
    | refused reason =>
      refine .inl ⟨rfl, fun _ _ hends' => ?_, hpulls⟩
      cases (hends.unique hends').2
  | error e =>
    simp only [Player.afterSubmission]
    cases hafter : p.retry.after .transport attempt e with
    | again next => exact .inl ⟨rfl, .submit (hreach.again hplay hafter) hplays hpulls⟩
    | giveUp =>
      have hends := hreach.ends_of_giveUp hplay hafter
      refine .inl ⟨rfl, fun _ _ hends' => ?_, hpulls⟩
      cases (hends.unique hends').2
    | overflow =>
      exact .inl ⟨rfl, fun _ _ hends => hreach.not_ends hplay hafter hends, hpulls⟩

/-- A step of the leading task while the strategy is submitted. -/
theorem submitting_step {x : Task} (h : Submitting p s d w.plays w.pulls now x) :
    (p.step (s.delayed d) now w x).world.stops = w.stops ∧
      KeepsSubmitting p s d now (p.step (s.delayed d) now w x) := by
  cases h with
  | begin hplays hpulls =>
    have hnext : Submitting p s d w.plays w.pulls (0 * d.play) (.submit 0 1) :=
      .submit (Policy.Reaches.first _ _) hplays hpulls
    rw [Nat.zero_mul] at hnext
    exact ⟨rfl, .inl ⟨rfl, hnext⟩⟩
  | @submit made attempt hreach hplays hpulls =>
    have hplays : w.plays ++ [made * d.play] = sendTimes d.play (made + 1) := by
      rw [sendTimes_succ, hplays]
    have hnext : Submitting p s d (w.plays ++ [made * d.play]) w.pulls
        ((made + 1) * d.play) (.submitted 0 attempt) := .submitted hreach hplays hpulls
    rw [Nat.succ_mul] at hnext
    exact ⟨rfl, .inl ⟨rfl, hnext⟩⟩
  | @submitted made attempt hreach hplays hpulls =>
    have hanswer : s.plays (w.plays.length - 1) = s.plays made := by
      rw [hplays, length_sendTimes, Nat.add_sub_cancel]
    have hstep : p.step (s.delayed d) ((made + 1) * d.play) w (.submitted 0 attempt) =
        p.afterSubmission ((made + 1) * d.play) 0 attempt w (s.plays made) := by
      rw [← hanswer]
      rfl
    rw [hstep]
    exact ⟨congrArg Calls.stops (p.afterSubmission_world ..),
      keepsSubmitting_afterSubmission hreach hplays hpulls⟩

/-- What a step does next while the feeds are pulled: it goes on pulling, or the run ends when the
latest pull is answered. -/
def KeepsPulling (p : Player) (s : Script) (d : Delays) (runId : Int) (now : Nat)
    (move : Move Calls Task) : Prop :=
  move.started = [] ∧ move.next.Meets
    (fun millis => Pulling p s d runId move.world.pulls (now + millis))
    (fun _ => ∃ kind request, Sent p s d runId move.world.pulls now kind request) False

/-- The step after a poll that brought its results. -/
theorem keepsPulling_afterPoll {before : List Request} {request : Request} {returns : Returns}
    (hsent : Sent p s d runId w.pulls now .poll request)
    (hasked : Asked p.timing.pageSize p.grids s.pulls runId before .poll request)
    (hpulls : w.pulls.map Prod.snd = before ++ [request])
    (hpull : s.pulls before.length request = .ok returns) :
    KeepsPulling p s d runId now (p.afterPoll now ⟨0, runId⟩ request returns w) := by
  obtain ⟨starts, -, hpolls⟩ := hasked.holds
  unfold Player.afterPoll
  cases hexit : returns.lifecycle.terminal? with
  | none =>
    have hnext := hasked.next hpull (Returns.terminal?_eq_none.1 hexit) (hpolls.next returns)
    rw [← hpulls] at hnext
    exact ⟨rfl, .pull hnext fun call hcall =>
      Nat.le_trans (hsent.answered call hcall) (Nat.le_add_right now _)⟩
  | some status =>
    cases status with
    | success =>
      have hnext := hasked.drain hpull (Returns.terminal?_eq_success.1 hexit)
        (hpolls.drain returns p.grids)
      rw [← hpulls] at hnext
      exact ⟨rfl, .pull hnext hsent.answered⟩
    | error | canceled => exact ⟨rfl, .poll, request, hsent⟩

/-- The step after any pull. -/
theorem keepsPulling_afterPull {before : List Request} {kind : PullKind} {request : Request}
    (hsent : Sent p s d runId w.pulls now kind request)
    (hasked : Asked p.timing.pageSize p.grids s.pulls runId before kind request)
    (hpulls : w.pulls.map Prod.snd = before ++ [request]) :
    KeepsPulling p s d runId now (p.afterPull now ⟨0, runId⟩ kind request attempt w
      (s.pulls before.length request)) := by
  cases hpull : s.pulls before.length request with
  | ok returns =>
    cases kind with
    | poll => exact keepsPulling_afterPoll hsent hasked hpulls hpull
    | drain => exact ⟨rfl, .drain, request, hsent⟩
  | error e =>
    unfold Player.afterPull
    dsimp only
    cases hafter : p.retry.after .transport attempt e with
    | again next =>
      have hnext := hasked.again hpull (Policy.isTransport_of_again hafter)
      rw [← hpulls] at hnext
      exact ⟨rfl, .pull hnext hsent.answered⟩
    | giveUp => cases kind <;> exact ⟨rfl, _, request, hsent⟩
    | overflow => exact ⟨rfl, kind, request, hsent⟩

/-- A step of the leading task while the feeds are pulled. -/
theorem pulling_step {x : Task} (h : Pulling p s d runId w.pulls now x) :
    (p.step (s.delayed d) now w x).world.plays = w.plays ∧
      (p.step (s.delayed d) now w x).world.stops = w.stops ∧
      KeepsPulling p s d runId now (p.step (s.delayed d) now w x) := by
  cases h with
  | @pull kind request attempt hasked hanswered =>
    have hsent : Sent p s d runId (w.pulls ++ [(now, request)]) (now + d.pull) kind request :=
      ⟨w.pulls, now, rfl, hasked, hanswered, rfl⟩
    exact ⟨rfl, rfl, rfl, .pulled hsent⟩
  | @pulled kind request attempt hsent =>
    obtain ⟨before, sent, hpulls, hasked, -, -⟩ := id hsent
    have hanswer : s.pulls (w.pulls.length - 1) request =
        s.pulls (before.map Prod.snd).length request := by
      rw [hpulls, List.length_append, List.length_map, List.length_singleton, Nat.add_sub_cancel]
    have hstep : p.step (s.delayed d) now w (.pulled ⟨0, runId⟩ kind request attempt) =
        p.afterPull now ⟨0, runId⟩ kind request attempt w
          (s.pulls (before.map Prod.snd).length request) := by
      rw [← hanswer]
      rfl
    have hpulls : w.pulls.map Prod.snd = before.map Prod.snd ++ [request] := by
      rw [hpulls, List.map_append]
      rfl
    rw [hstep]
    have hworld := p.afterPull_world now ⟨0, runId⟩ kind request attempt w
      (s.pulls (before.map Prod.snd).length request)
    exact ⟨congrArg Calls.plays hworld, congrArg Calls.stops hworld,
      keepsPulling_afterPull hsent hasked hpulls⟩

/-! ## All steps -/

/-- Where the leading task stands. -/
def Leading (p : Player) (s : Script) (d : Delays) (plays : List Nat)
    (pulls : List (Nat × Request)) (now : Nat) (x : Task) : Prop :=
  Submitting p s d plays pulls now x ∨
    ∃ runId known, Assigned p s d runId known plays ∧ Pulling p s d runId pulls now x

/-- The run is over: it never got an id and has pulled nothing, or its latest pull was answered. -/
def Finished (p : Player) (s : Script) (d : Delays) (plays : List Nat)
    (pulls : List (Nat × Request)) : Prop :=
  (NeverStarts p s ∧ pulls = []) ∨
    ∃ runId known, Assigned p s d runId known plays ∧
      ∃ now kind request, Sent p s d runId pulls now kind request

theorem Player.machine_step {ω : Type} (p : Player) (g : Gateway ω) :
    (p.machine g).step = p.step g := rfl

/-- The runs of a player over a server with delays are led by the task that submits and pulls. -/
theorem Player.led_delayed (p : Player) (s : Script) (d : Delays) :
    (p.machine (s.delayed d)).Led Task.leads (fun now w => Leading p s d w.plays w.pulls now)
      (fun w _ => Finished p s d w.plays w.pulls) where
  leads h := by
    rcases h with h | ⟨_, _, -, h⟩ <;> cases h <;> rfl
  leading {now w x} h := by
    rcases h with h | ⟨runId, known, hassigned, h⟩
    · obtain ⟨-, ⟨hstarted, hnext⟩ | ⟨runId, y, hassigned, hstarted, hnext, hpulling⟩⟩ :=
        submitting_step h
      · refine ⟨fun y hy => ?_, hnext.mono (fun _ _ => .inl) (fun _ => .inl) id⟩
        rw [show ((p.machine (s.delayed d)).step now w x).started = [] from hstarted] at hy
        cases hy
      · refine ⟨hstarted ▸ watchers_aside p _, ?_⟩
        show ((p.step (s.delayed d) now w x).next).Meets _ _ _
        rw [hnext]
        exact .inr ⟨runId, now, hassigned, hpulling⟩
    · obtain ⟨hplays, -, hstarted, hnext⟩ := pulling_step h
      rw [← hplays] at hassigned
      refine ⟨fun y hy => ?_, hnext.mono (fun _ _ h => .inr ⟨runId, known, hassigned, h⟩)
        (fun _ h => .inr ⟨runId, known, hassigned, now, h⟩) id⟩
      rw [show ((p.machine (s.delayed d)).step now w x).started = [] from hstarted] at hy
      cases hy
  aside now w _ h := (step_aside_delayed p s d now w h).1
  keeps now w _ h _ _ hleading := by
    obtain ⟨-, hplays, hpulls⟩ := step_aside_delayed p s d now w h
    exact hplays.symm ▸ hpulls.symm ▸ hleading
  keeps_done now w _ h _ hfinished := by
    obtain ⟨-, hplays, hpulls⟩ := step_aside_delayed p s d now w h
    exact hplays.symm ▸ hpulls.symm ▸ hfinished

/-! ## The requests of a run -/

/-- The requests of the pulls are those that a run asks for one after the other. -/
def AllAsked (p : Player) (s : Script) (pulls : List (Nat × Request)) : Prop :=
  pulls = [] ∨ ∃ attempts runId, p.retry.Ends s.plays attempts (.ok (.started runId)) ∧
    ∀ before call after, pulls = before ++ call :: after →
      ∃ kind, AsksFor p s runId before kind call.2

theorem Leading.allAsked {x : Task} {pulls : List (Nat × Request)} {plays : List Nat}
    (h : Leading p s d plays pulls now x) : AllAsked p s pulls := by
  rcases h with h | ⟨runId, _, ⟨attempts, hends, -⟩, h⟩
  · cases h with
    | begin _ hpulls | submit _ _ hpulls | submitted _ _ hpulls => exact .inl hpulls
  · refine .inr ⟨attempts, runId, hends, fun before call after hsplit => ?_⟩
    cases h with
    | pull hasked _ => exact AsksFor.of_append (hsplit ▸ hasked)
    | pulled hsent => exact hsent.asked hsplit

theorem Finished.allAsked {pulls : List (Nat × Request)} {plays : List Nat}
    (h : Finished p s d plays pulls) : AllAsked p s pulls := by
  rcases h with ⟨-, hpulls⟩ | ⟨runId, _, ⟨attempts, hends, -⟩, _, _, _, hsent⟩
  · exact .inl hpulls
  · exact .inr ⟨attempts, runId, hends, fun _ _ _ hsplit => hsent.asked hsplit⟩

namespace Script

/-- A run of a player over the server with delays: at most `fuel` steps of its tasks until it ends,
and then at most `more` steps that are due by `last`. -/
def observe (s : Script) (p : Player) (d : Delays) (fuel last more : Nat) :
    Timeline Calls Task × List Event :=
  let m := p.machine (s.delayed d)
  let (t, events) := ((Timeline.start ⟨[], [], []⟩).launch m).untilEnded m fuel 1
  let (t, later) := t.untilTime m last more
  (t, events ++ later)

/-- What holds when a run is launched and is kept by every step holds however far it is observed. -/
theorem observe_kept {P : Timeline Calls Task → List Fate → Prop}
    (hP : Timeline.Kept (p.machine (s.delayed d)) P)
    (h : P ((Timeline.start ⟨[], [], []⟩).launch (p.machine (s.delayed d))) [])
    (fuel last more : Nat) :
    P (s.observe p d fuel last more).1 (fates (s.observe p d fuel last more).2) := by
  have horder : InOrder 0 ((Timeline.start ⟨[], [], []⟩).launch
      (p.machine (s.delayed d))).agenda :=
    ⟨List.pairwise_singleton _ _, fun _ _ => Nat.zero_le _⟩
  obtain ⟨hended, horder⟩ := hP.untilEnded fuel 1 h horder
  have hlater := hP.untilTime last more hended horder
  rwa [List.nil_append, ← fates_append] at hlater

/-- Whatever the server answers, the pulls of a run ask for what `Asked` says, for the id that the
run got and from no start below 0: the first one starts at 0, each further poll where the reply
before it lets its channels go on, the last one asks for what is left, and one that the transport
has lost is sent once more. -/
theorem pulls_asked (plays : Nat → Except Failure PlayAnswer)
    (replies : Nat → Request → Exchange) (stops : Nat → Except Failure Unit) (p : Player)
    (d : Delays) (fuel last more : Nat) :
    let s : Script := ⟨plays, fun n request => (replies n request).pull, stops⟩
    let pulls := (s.observe p d fuel last more).1.world.pulls
    (pulls = [] ∨ ∃ attempts runId, p.retry.Ends plays attempts (.ok (.started runId)) ∧
      ∀ before time request after, pulls = before ++ (time, request) :: after →
        ∃ kind, Asked p.timing.pageSize p.grids s.pulls runId (before.map Prod.snd) kind request ∧
          request.runId = runId ∧
          ∀ c page, request.page? c = some page → 0 ≤ page.start) ∧
    ∀ n request returns c, s.pulls n request = .ok returns → c ∈ Channel.initial →
      (replies n request).Resumes c (returns.resumeIndex c) := by
  intro s pulls
  refine ⟨?_, fun _ _ _ _ => Exchange.resumes_of_pull⟩
  have hled := p.led_delayed s d
  have hstands := observe_kept (fun hs h ht => Timeline.Stands.advance hled hs h ht)
    (Timeline.Stands.launch hled (.inl (.begin rfl rfl))).1 fuel last more
  have hall : AllAsked p s pulls := by
    generalize fates (s.observe p d fuel last more).2 = ended at hstands
    cases hstands with
    | running _ _ hleading => exact hleading.allAsked
    | ended _ hfinished => exact hfinished.allAsked
  rcases hall with hnone | ⟨attempts, runId, hends, hasked⟩
  · exact .inl hnone
  · refine .inr ⟨attempts, runId, hends, fun before time request after hsplit => ?_⟩
    obtain ⟨kind, hasked⟩ := hasked before (time, request) after hsplit
    obtain ⟨starts, hstarts, hholds⟩ := hasked.holds
    exact ⟨kind, hasked, hholds.wellFormed hstarts⟩

end Script

end LoadProbe
