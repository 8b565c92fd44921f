import LoadProbe.Proofs.Play.Completion
import LoadProbe.Proofs.Play.Ledger

/-!
# No item lost, none read twice

The calls of a run on a `Ledger` are `Faithful`: at every one of them what has been received is what
the lists start with, and the delay after a reply tells whether it brought anything. This holds of
the calls that lead to any pull (`Ledger.faithful_of_due`), so it holds of a run however far it has
come (`Ledger.play_faithful`). The last pull brings everything that is left
(`Ledger.Draining.received_eq`), and the run comes to it, since it makes finitely many calls
(`Ledger.commands_le_of_stage`).
-/

namespace LoadProbe

open Facade Feed Pass

namespace Ledger

variable {l : Ledger} {r r' : Request} {c : Channel} {time time' : Nat}
variable {before log : List (Nat × Request)} {t : Timing}

/-- At every call the pages start after what has been received, and as long as the run is alive the
next call is made after the longer delay exactly when a reply brings nothing. -/
structure Faithful (l : Ledger) (t : Timing) (log : List (Nat × Request)) : Prop where
  current : ∀ before time r, before ++ [(time, r)] <+: log → l.Current before r
  delay : ∀ before time r time' r', before ++ [(time, r)] ++ [(time', r')] <+: log →
    before.length < l.alive →
    (l.Barren before.length r → time' = time + t.idleDelay) ∧
    (¬l.Barren before.length r → time' = time + t.activeDelay)

namespace Faithful

theorem nil : l.Faithful t [] where
  current before time r h := absurd (List.prefix_nil.1 h) (by simp)
  delay before time r time' r' h := absurd (List.prefix_nil.1 h) (by simp)

theorem mono (h : l.Faithful t log) (hpre : before <+: log) : l.Faithful t before where
  current _ _ _ hcall := h.current _ _ _ (hcall.trans hpre)
  delay _ _ _ _ _ hcalls := h.delay _ _ _ _ _ (hcalls.trans hpre)

/-- The first call. -/
theorem singleton (h : l.Current [] r) : l.Faithful t [(time, r)] where
  current before time' r' hcall := by
    rcases List.prefix_concat_iff.1 (show before ++ [(time', r')] <+: [] ++ [(time, r)] from hcall)
      with heq | hnil
    · obtain ⟨rfl, hr⟩ := List.append_inj' heq rfl
      cases hr
      exact h
    · simp at hnil
  delay before time' r' time'' r'' hcalls := by
    have := hcalls.length_le
    simp at this

/-- One more call. -/
theorem concat (h : l.Faithful t (before ++ [(time, r)]))
    (hcurrent : l.Current (before ++ [(time, r)]) r')
    (hdelay : before.length < l.alive →
      (l.Barren before.length r → time' = time + t.idleDelay) ∧
      (¬l.Barren before.length r → time' = time + t.activeDelay)) :
    l.Faithful t (before ++ [(time, r)] ++ [(time', r')]) where
  current earlier time₁ r₁ hcall := by
    rcases List.prefix_concat_iff.1 hcall with heq | hearlier
    · obtain ⟨rfl, hr⟩ := List.append_inj' heq rfl
      cases hr
      exact hcurrent
    · exact h.current _ _ _ hearlier
  delay earlier time₁ r₁ time₂ r₂ hcalls := by
    rcases List.prefix_concat_iff.1 hcalls with heq | hearlier
    · obtain ⟨hbefore, hr⟩ := List.append_inj' heq rfl
      obtain ⟨rfl, hr'⟩ := List.append_inj' hbefore rfl
      cases hr
      cases hr'
      exact hdelay
    · exact h.delay _ _ _ _ _ hearlier

end Faithful

/-! ## The calls of a run -/

section

variable {p : Player} {stops : Nat → Except Failure Unit} {runId : Int} {polls : List Poll}
variable {attempts : Nat} {result : Except Failure Returns} {grids : Bool}

/-- Every pull command takes one attempt. -/
theorem pull_ends {n : Nat} (h : PullEnds p (l.script stops) n r attempts result) :
    attempts = 1 ∧ result = .ok (l.returns n r) :=
  h.unique (Policy.ends_of_first_ok p.retry (l.pulls_eq n r))

/-- What holds when the run is about to poll: as many calls were made as polls, at most as many as
find the run alive, and they are faithful. -/
structure Polling (l : Ledger) (t : Timing) (polls : List Poll) (r : Request) : Prop where
  calls : Poll.calls polls = polls.length
  le_alive : polls.length ≤ l.alive
  /-- No request of the run subscribes any other channels than the first one. -/
  follows : ∀ call ∈ Poll.log t 0 polls ++ [(Poll.elapsed t polls, r)], ∀ c page,
    call.2.page? c = some page → c ∈ Channel.initial
  faithful : l.Faithful t (Poll.log t 0 polls ++ [(Poll.elapsed t polls, r)])

theorem polling_first (l : Ledger) (t : Timing) (runId size : Int) :
    l.Polling t [] (.initial runId size) where
  calls := rfl
  le_alive := Nat.zero_le _
  follows := by
    intro call hcall c page hpage
    obtain rfl := List.mem_singleton.1 hcall
    rw [Request.page?_initial] at hpage
    by_contra hc
    rw [if_neg hc] at hpage
    cases hpage
  faithful := .singleton (l.current_initial runId size)

/-- A poll after which the run goes on is one that finds it alive. -/
theorem Polling.next (h : l.Polling t polls r)
    (hruns : ¬(l.returns polls.length r).Exits) :
    l.Polling t (polls ++ [⟨r, 1, l.returns polls.length r⟩])
      (r.next (l.returns polls.length r)) := by
  have hlength : (Poll.log t 0 polls).length = polls.length :=
    (Poll.length_log 0 polls).trans h.calls
  have hlast : (Poll.elapsed t polls, r) ∈ Poll.log t 0 polls ++ [(Poll.elapsed t polls, r)] :=
    List.mem_append_right _ List.mem_cons_self
  have hlt : polls.length < l.alive := by
    -- The reply after as many polls as find the run alive is a normal exit.
    refine Nat.lt_of_le_of_ne h.le_alive fun heq => ?_
    rw [heq, ← Returns.terminal?_eq_none, l.terminal?_alive] at hruns
    cases hruns
  have hcurrent := h.faithful.current _ _ _ List.prefix_rfl
  have hunmoved := hcurrent.unmoved_iff (h.follows _ hlast)
  have hnext := hcurrent.next (Poll.elapsed t polls)
  rw [hlength] at hunmoved hnext
  have hlog : Poll.log t 0 (polls ++ [⟨r, 1, l.returns polls.length r⟩]) =
      Poll.log t 0 polls ++ [(Poll.elapsed t polls, r)] := by
    rw [Poll.log_concat, Nat.zero_add]
    rfl
  constructor
  · rw [Poll.calls_concat, h.calls, List.length_append]
    rfl
  · rw [List.length_append]
    exact hlt
  · rw [hlog]
    intro call hcall c page hpage
    rcases List.mem_append.1 hcall with hcall | hcall
    · exact h.follows call hcall c page hpage
    · obtain rfl := List.mem_singleton.1 hcall
      rw [Request.page?_next, Option.map_eq_some_iff] at hpage
      obtain ⟨page', hpage', -⟩ := hpage
      exact h.follows _ hlast c page' hpage'
  · rw [hlog, Poll.elapsed_concat]
    refine h.faithful.concat hnext fun _ => ?_
    rw [hlength, Poll.delay]
    exact ⟨fun hbarren => by rw [if_pos (hunmoved.2 hbarren)],
      fun hbarren => by rw [if_neg fun hun => hbarren (hunmoved.1 hun)]⟩

/-- All polls of a run. -/
theorem polling_of_leads (h : Leads p (l.script stops) runId polls r) :
    l.Polling p.timing polls r := by
  induction h with
  | first => exact l.polling_first p.timing runId _
  | poll _ hends hruns ih =>
    obtain ⟨rfl, hreturns⟩ := pull_ends hends
    rw [ih.calls, Except.ok.injEq] at hreturns
    subst hreturns
    exact ih.next hruns

/-- The poll that ends a run brings a normal exit. -/
theorem exit_of_leads (h : Leads p (l.script stops) runId polls r)
    (hends : PullEnds p (l.script stops) (Poll.calls polls) r attempts result)
    {status : RunStatus} (hexit : exitStatus? result = some status) :
    attempts = 1 ∧ polls.length = l.alive ∧ status = .success ∧
      result = .ok (l.returns l.alive r) := by
  have hpolling := polling_of_leads h
  obtain ⟨rfl, rfl⟩ := pull_ends hends
  rw [hpolling.calls] at hexit ⊢
  have halive : polls.length = l.alive := by
    -- Any earlier reply would have let the run go on.
    refine Nat.le_antisymm hpolling.le_alive (Nat.not_lt.1 fun hlt => ?_)
    rw [exitStatus?, Returns.terminal?_eq_none.2 (l.not_exits hlt r)] at hexit
    cases hexit
  rw [halive, exitStatus?, l.terminal?_alive, Option.some.injEq] at hexit
  exact ⟨rfl, halive, hexit.symm, by rw [halive]⟩

/-- What holds when the run is about to ask for everything that is left. -/
structure Draining (l : Ledger) (t : Timing) (grids : Bool) (before : List (Nat × Request))
    (time : Nat) (r : Request) : Prop where
  length : before.length = l.alive + 1
  faithful : l.Faithful t (before ++ [(time, r)])
  /-- Of each channel it asks for what follows on what has been received. -/
  pages : ∀ c, c ∈ Channel.initial ∨ grids = true ∧ c.isGrid = true →
    r.page? c = some ⟨(l.received c before).length, unboundedLength⟩ ∧
      l.received c before <+: l.items (l.alive + 1) c

theorem received_eq_nil (l : Ledger) (h : ∀ call ∈ before, call.2.page? c = none) :
    l.received c before = [] := by
  unfold received
  generalize 0 = n
  induction before generalizing n with
  | nil => rfl
  | cons call rest ih =>
    obtain ⟨hcall, hrest⟩ := List.forall_mem_cons.1 h
    rw [receivedFrom, l.brought_of_none n hcall, ih hrest]
    rfl

theorem Polling.drain (h : l.Polling t polls r) (halive : polls.length = l.alive) (grids : Bool) :
    l.Draining t grids (Poll.log t 0 polls ++ [(Poll.elapsed t polls, r)]) (Poll.elapsed t polls)
      (r.drain (l.returns l.alive r) grids) := by
  have hlength : (Poll.log t 0 polls).length = l.alive :=
    ((Poll.length_log 0 polls).trans h.calls).trans halive
  have hcurrent := h.faithful.current _ _ _ List.prefix_rfl
  have hdrain := hcurrent.drain (Poll.elapsed t polls) grids
  rw [hlength] at hdrain
  have hlength' : (Poll.log t 0 polls ++ [(Poll.elapsed t polls, r)]).length = l.alive + 1 := by
    rw [List.length_append, hlength]
    rfl
  refine ⟨hlength', h.faithful.concat hdrain fun hlt => absurd hlt (by omega), ?_⟩
  rintro c (hc | ⟨rfl, hgrid⟩)
  · obtain ⟨page, hpage, hstart, hpre⟩ := hdrain c hc
    refine ⟨?_, hpre _ (by omega)⟩
    rw [← hstart, hpage]
    rw [Request.page?_drain r _ grids (isGrid_of_initial hc), Option.map_eq_some_iff] at hpage
    obtain ⟨_, -, rfl⟩ := hpage
    rfl
  · -- The grids are subscribed for the first time, so nothing has been received of them.
    have hnone : l.received c (Poll.log t 0 polls ++ [(Poll.elapsed t polls, r)]) = [] := by
      refine l.received_eq_nil fun call hcall => ?_
      cases hpage : call.2.page? c with
      | none => rfl
      | some page =>
        have := isGrid_of_initial (h.follows call hcall c page hpage)
        rw [hgrid] at this
        cases this
    rw [hnone]
    exact ⟨r.page?_drain_of_isGrid _ hgrid, List.nil_prefix⟩

theorem Draining.received_eq (h : l.Draining t grids before time r)
    (hc : c ∈ Channel.initial ∨ grids = true ∧ c.isGrid = true)
    (hleft : (l.items (l.alive + 1) c).length ≤ (l.received c before).length + 2147483647) :
    l.received c (before ++ [(time, r)]) = l.items (l.alive + 1) c := by
  obtain ⟨hpage, hpre⟩ := h.pages c hc
  rw [received_concat, h.length, l.brought_eq _ hpage, Page.append_window hpre rfl]
  exact List.take_of_length_le hleft

theorem draining_of_due (h : Due p (l.script stops) runId .drain before time r) :
    l.Draining p.timing p.grids before time r := by
  cases h with
  | drain hleads hends hnormal =>
    have hexit := exitStatus?_eq_success.2 ⟨_, rfl, hnormal⟩
    obtain ⟨rfl, halive, -, hreturns⟩ := exit_of_leads hleads hends hexit
    cases hreturns
    exact (polling_of_leads hleads).drain halive p.grids

theorem faithful_of_due {kind : PullKind} (h : Due p (l.script stops) runId kind before time r) :
    l.Faithful p.timing (before ++ [(time, r)]) := by
  cases kind with
  | poll =>
    cases h with
    | poll hleads => exact (polling_of_leads hleads).faithful
  | drain => exact (draining_of_due h).faithful

theorem length_le_of_due {kind : PullKind} (h : Due p (l.script stops) runId kind before time r) :
    before.length ≤ l.alive + 1 := by
  cases kind with
  | poll =>
    cases h with
    | poll hleads =>
      have hpolling := polling_of_leads hleads
      rw [Poll.length_log, hpolling.calls]
      exact Nat.le_succ_of_le hpolling.le_alive
  | drain => exact (draining_of_due h).length.le

/-! ## The whole run -/

/-- Wherever the leading task stands, the calls so far are faithful. -/
theorem faithful_of_stage {plays : List Nat} {pulls : List (Nat × Request)} {now : Nat} {x : Task}
    (h : Stage p (l.script stops) plays pulls now x) : l.Faithful p.timing pulls := by
  cases h with
  | begin _ hpulls | submit _ _ hpulls | submitted _ _ hpulls => exact hpulls ▸ .nil
  | pull _ hdue hreach hpulls =>
    obtain rfl := hreach.eq_zero (l.pulls_eq _ _)
    rw [hpulls, List.replicate_zero, List.append_nil]
    exact (faithful_of_due hdue).mono ⟨_, rfl⟩
  | pulled _ hdue hreach hpulls =>
    obtain rfl := hreach.eq_zero (l.pulls_eq _ _)
    rw [hpulls]
    exact faithful_of_due hdue

/-- A run makes one play, a pull for every reply that finds it alive, and two more pulls. -/
theorem commands_le_of_stage {plays : List Nat} {pulls : List (Nat × Request)} {now : Nat}
    {x : Task} (h : Stage p (l.script stops) plays pulls now x) :
    plays.length + pulls.length ≤ l.alive + 3 := by
  have hplay : (l.script stops).plays 0 = .ok (.started l.runId) := rfl
  have hstarted {plays : List Nat} {runId : Int} (h : Started p (l.script stops) runId plays) :
      plays.length = 1 := by
    obtain ⟨attempts, hends, rfl⟩ := h
    obtain ⟨rfl, -⟩ := hends.unique (Policy.ends_of_first_ok p.retry hplay)
    rfl
  cases h with
  | begin hplays hpulls =>
    rw [hplays, hpulls]
    exact Nat.zero_le _
  | submit hreach hplays hpulls | submitted hreach hplays hpulls =>
    obtain rfl := hreach.eq_zero hplay
    rw [hplays, hpulls]
    exact Nat.le_add_left _ _
  | pull hplays hdue hreach hpulls | pulled hplays hdue hreach hpulls =>
    obtain rfl := hreach.eq_zero (l.pulls_eq _ _)
    have hle := length_le_of_due hdue
    rw [hstarted hplays, hpulls, List.length_append, List.length_replicate]
    omega

/-- The run ends as a success, with the calls that ask for everything. -/
theorem draining_of_over {plays : List Nat} {pulls : List (Nat × Request)} {fate : Fate}
    (h : Over p (l.script stops) plays pulls fate) :
    ∃ before time r, l.Draining p.timing p.grids before time r ∧
      pulls = before ++ [(time, r)] ∧ fate = .outcome (.ofMillis .success time) := by
  cases h with
  | crash hfailed =>
    rcases hfailed with ⟨_, hplay⟩ | ⟨n, r, hpull⟩
    · cases hplay
    · exact nomatch (l.pulls_eq n r).symm.trans hpull
  | refused hends hnot =>
    have hstarted := Policy.ends_of_first_ok p.retry (show (l.script stops).plays 0 = _ from rfl)
    exact absurd (hends.unique hstarted).2 (hnot _)
  | interrupted _ hleads hends hexit hne =>
    exact absurd (exit_of_leads hleads hends hexit).2.2.1 hne
  | drained _ hdue hends hpulls =>
    obtain ⟨rfl, -⟩ := pull_ends hends
    exact ⟨_, _, _, draining_of_due hdue, hpulls, rfl⟩

end

/-- However far a run has come, its calls are faithful. -/
theorem play_faithful (l : Ledger) (stops : Nat → Except Failure Unit) (p : Player) (fuel : Nat) :
    l.Faithful p.timing ((l.script stops).play p fuel).1.world.pulls := by
  have hstands := (Script.play_stands (l.script stops) p fuel).1
  generalize fates _ = ended at hstands
  cases hstands with
  | running e _ hstage => exact faithful_of_stage hstage
  | ended _ hover =>
    obtain ⟨before, time, r, hdraining, hpulls, -⟩ := draining_of_over hover
    rw [hpulls]
    exact hdraining.faithful

/-- A run on growing lists loses no item and reads none twice. At every pull call, whatever has been
received of a channel is what its list starts with, up to the start of the requested page; while the
run is alive the next call comes after 5 s when a reply brings nothing, and after 1 s otherwise. The
run comes to its end, and has then received the whole lists as they stand at its last call, unless
more items were left than a page can ask for. -/
theorem play_exact (l : Ledger) (stops : Nat → Except Failure Unit) (retry : Policy)
    (deadline : Nat) (grids : Bool) (size : Int) (fuel : Nat) :
    let p : Player := ⟨deadline, grids, ⟨5000, 1000, 5000, size⟩, retry⟩
    let run := (l.script stops).play p fuel
    let calls := run.1.world.pulls
    (∀ before time r, before ++ [(time, r)] <+: calls → ∀ c ∈ Channel.initial, ∃ page : Page,
      r.page? c = some page ∧ page.start = (l.received c before).length ∧
      ∀ n, before.length ≤ n + 1 →
        l.received c before = (l.items n c).take page.start.toNat) ∧
    (∀ before time r time' r', before ++ [(time, r)] ++ [(time', r')] <+: calls →
      before.length < l.alive →
      (l.Barren before.length r → time' = time + 5000) ∧
      (¬l.Barren before.length r → time' = time + 1000)) ∧
    (∃ enough, ∀ fuel' ≥ enough, ∃ fate, fates ((l.script stops).play p fuel').2 = [fate]) ∧
    ∀ fate, fates run.2 = [fate] →
      (∃ millis, fate = .outcome ⟨.success, millis⟩) ∧ calls.length = l.alive + 2 ∧
      ∀ c, c ∈ Channel.initial ∨ grids = true ∧ c.isGrid = true →
        (l.items (l.alive + 1) c).length ≤
          (l.received c (calls.take (l.alive + 1))).length + 2147483647 →
        l.received c calls = l.items (l.alive + 1) c := by
  intro p run calls
  have hfaithful : l.Faithful p.timing calls := l.play_faithful stops p fuel
  refine ⟨fun before time r hcall c hc => ?_, hfaithful.delay, ?_, fun fate hended => ?_⟩
  · obtain ⟨page, hpage, hstart, hpre⟩ := hfaithful.current before time r hcall c hc
    refine ⟨page, hpage, hstart, fun n hn => ?_⟩
    rw [hstart, Int.toNat_natCast]
    exact List.prefix_iff_eq_take.1 (hpre n hn)
  · exact Script.play_ends (show 0 < 5000 by decide) fun _ _ _ _ => commands_le_of_stage
  · obtain ⟨before, time, r, hdraining, hpulls, rfl⟩ :=
      draining_of_over (Script.over_of_fates hended)
    have htake : calls.take (l.alive + 1) = before := by
      rw [← hdraining.length, show calls = before ++ [(time, r)] from hpulls, List.take_left']
      rfl
    refine ⟨⟨_, rfl⟩, ?_, fun c hc hleft => ?_⟩
    · rw [show calls = before ++ [(time, r)] from hpulls, List.length_append, hdraining.length]
      rfl
    · rw [htake] at hleft
      rw [show calls = before ++ [(time, r)] from hpulls]
      exact hdraining.received_eq hc hleft

/-- A server whose trades come one by one, the first of them after the first pull. The third pull
finds the run over. -/
def trading : Ledger :=
  .serving 7 (fun n c => if c = .trades then [.int 1, .int 2, .int 3].take n else [])
    (fun n c => by
      split
      · exact List.take_prefix_take_left (Nat.le_succ n)
      · exact List.prefix_rfl)
    (fun n c => by
      split
      · exact Nat.lt_of_le_of_lt (List.length_take_le' _ _) (by decide)
      · decide)
    (fun n => if n < 2 then some "Running" else some "NormalExit") 2
    (fun n hn t ht => by
      rw [if_pos hn] at ht
      obtain rfl := Option.some.inj ht
      decide)
    rfl

/-- A run that reads this server by pages of one item receives all trades in order. -/
theorem play_exact_trading :
    let run := (trading.script fun _ => .ok ()).play
      ⟨0, false, ⟨5000, 1000, 5000, 1⟩, .forever⟩ 30
    fates run.2 = [.outcome ⟨.success, 6000⟩] ∧
      trading.received .trades run.1.world.pulls = [.int 1, .int 2, .int 3] := by
  intro run
  have hended : fates run.2 = [.outcome ⟨.success, 6000⟩] := by decide +kernel
  obtain ⟨-, -, -, hover⟩ := play_exact trading (fun _ => .ok ()) .forever 0 false 1 30
  obtain ⟨-, -, hall⟩ := hover _ hended
  exact ⟨hended, hall .trades (.inl (by decide)) (by decide +kernel)⟩

end Ledger

end LoadProbe
