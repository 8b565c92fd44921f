import LoadProbe.Player
import LoadProbe.Proofs.Facade.Reply
import LoadProbe.Proofs.Feed.Request
import Mathlib.Order.Basic

/-!
# What a run asks for

A run sends one pull request after the other, each as the reply to the one before it lets it. `Asked`
says which request follows after some others, by what the requests hold (`Request.Polls`,
`Request.Drains`), apart from the functions that form them: `Request.Polls.next` and
`Request.Polls.drain` show that these keep to it, whatever the reply is. `Exchange.resumes_of_pull`
says where a reply lets a channel go on, down to its JSON.
-/

namespace LoadProbe

open Facade Feed

/-! ## Replies -/

/-- A reply with results tells this number as the next index of a channel. -/
def Facade.Exchange.Tells (x : Exchange) (c : Channel) (n : Int) : Prop :=
  ∃ v results raw, x.document = .ok v ∧ HasResults v results ∧ results.get? c.key = some raw ∧
    raw.get? "NextIndex" = some (.int n)

/-- Where a channel goes on after a reply. -/
inductive Facade.Exchange.Resumes (x : Exchange) (c : Channel) : Int → Prop
  /-- At the next index that the reply tells, when it is a natural of a signed word of 64 bits. -/
  | told {n : Int} : x.Tells c n → 0 ≤ n → n < 2 ^ 63 → x.Resumes c n
  /-- At 0, when the reply tells no number or any other one. -/
  | reset : (∀ n, x.Tells c n → n < 0 ∨ 2 ^ 63 ≤ n) → x.Resumes c 0

theorem Feed.Channel.exists_sliceKey {c : Channel} (hc : c ∈ Channel.initial) :
    ∃ key, c.sliceKey? = some key := by
  cases c with
  | portfolioGrids | riskGrids => simp [Channel.initial] at hc
  | _ => exact ⟨_, rfl⟩

/-- The next index that the results of a pull have for a channel. -/
theorem Feed.Returns.nextIndex_ofResults {c : Channel} (hc : c ∈ Channel.initial) (results : Json) :
    ((Returns.ofResults results).slices.get? c).bind (·.nextIndex) =
      ((results.get? c.key).bind (·.get? "NextIndex")).bind Returns.index? := by
  obtain ⟨key, hkey⟩ := Channel.exists_sliceKey hc
  rw [Returns.ofResults, Table.get?_ofFn]
  cases results.get? c.key with
  | none => rfl
  | some raw => simp only [Option.map_some, Option.bind_some, Returns.slice, hkey]

theorem Feed.Returns.index?_eq_some_iff {v : Json} {n : Int} :
    Returns.index? v = some n ↔ v = .int n ∧ -2 ^ 63 ≤ n ∧ n < 2 ^ 63 := by
  unfold Returns.index?
  split
  · rename_i k
    have hword : Number.signed64.contains k = true ↔ -2 ^ 63 ≤ k ∧ k < 2 ^ 63 := by
      simp only [Number.Range.contains_iff, Number.signed64]
      omega
    split
    · rename_i h
      rw [hword] at h
      rw [Option.some.injEq, Json.int.injEq]
      exact ⟨fun heq => ⟨heq, heq ▸ h⟩, And.left⟩
    · rename_i h
      rw [hword] at h
      constructor
      · intro hnone
        cases hnone
      · rintro ⟨heq, hn⟩
        rw [Json.int.inj heq] at h
        exact absurd hn h
  · rename_i hother
    constructor
    · intro hnone
      cases hnone
    · rintro ⟨heq, -⟩
      exact absurd heq (hother n)

/-- Where the next pull starts is where the reply lets the channel go on. -/
theorem Facade.Exchange.resumes_of_pull {x : Exchange} {returns : Returns} {c : Channel}
    (h : x.pull = .ok returns) (hc : c ∈ Channel.initial) :
    x.Resumes c (returns.resumeIndex c) := by
  obtain ⟨v, hv⟩ : ∃ v, x.document = .ok v := by
    cases hd : x.document with
    | ok v => exact ⟨v, rfl⟩
    | error e =>
      rw [Exchange.pull, hd] at h
      cases h
  have hreturns : pullReturns v = .ok returns := by rwa [Exchange.pull, hv] at h
  obtain ⟨-, results, hresults, rfl⟩ := pullReturns_eq_ok_iff.1 hreturns
  have htells (n : Int) : x.Tells c n ↔
      (results.get? c.key).bind (·.get? "NextIndex") = some (.int n) := by
    rw [Option.bind_eq_some_iff]
    constructor
    · rintro ⟨v', results', raw, hv', hresults', hraw, hn⟩
      obtain rfl : v = v' := Except.ok.inj (hv.symm.trans hv')
      rw [hresults.unique hresults']
      exact ⟨raw, hraw, hn⟩
    · rintro ⟨raw, hraw, hn⟩
      exact ⟨v, results, raw, hv, hresults, hraw, hn⟩
  unfold Returns.resumeIndex
  rw [Returns.nextIndex_ofResults hc]
  split
  · rename_i n hn
    obtain ⟨field, hfield, hindex⟩ := Option.bind_eq_some_iff.1 hn
    obtain ⟨rfl, -, hhi⟩ := Returns.index?_eq_some_iff.1 hindex
    have hn := (htells n).2 hfield
    split
    · exact .told hn ‹_› hhi
    · refine .reset fun n' hn' => ?_
      rw [htells, hfield, Option.some.injEq, Json.int.injEq] at hn'
      omega
  · rename_i hnone
    refine .reset fun n hn => ?_
    rw [(htells n).1 hn, Option.bind_some] at hnone
    by_contra hrange
    have hindex : Returns.index? (.int n) = some n :=
      Returns.index?_eq_some_iff.2 ⟨rfl, by omega, by omega⟩
    rw [hindex] at hnone
    cases hnone

/-! ## Requests -/

/-- The request subscribes the initial channels of the run, and no other one, from these starts on
for pages of this length. -/
def Feed.Request.Polls (r : Request) (runId size : Int) (starts : Channel → Int) : Prop :=
  r.runId = runId ∧
    ∀ c, r.page? c = if c ∈ Channel.initial then some ⟨starts c, size⟩ else none

/-- The request asks for all that is left of the initial channels of the run, from these starts on,
and for the whole grids when they are wanted. -/
def Feed.Request.Drains (r : Request) (runId : Int) (grids : Bool) (starts : Channel → Int) : Prop :=
  r.runId = runId ∧
    ∀ c, r.page? c =
      if c ∈ Channel.initial then some ⟨starts c, unboundedLength⟩
      else if grids && c.isGrid then some ⟨0, unboundedLength⟩ else none

/-- What a pull request of a kind holds. -/
def PullKind.Holds (runId size : Int) (grids : Bool) (starts : Channel → Int) (r : Request) :
    PullKind → Prop
  | poll => r.Polls runId size starts
  | drain => r.Drains runId grids starts

namespace Feed.Request

variable {r : Request} {runId size : Int} {starts : Channel → Int}

theorem polls_initial (runId size : Int) :
    (Request.initial runId size).Polls runId size fun _ => 0 :=
  ⟨rfl, page?_initial runId size⟩

theorem Polls.next (h : r.Polls runId size starts) (returns : Returns) :
    (r.next returns).Polls runId size returns.resumeIndex := by
  refine ⟨h.1, fun c => ?_⟩
  rw [page?_next, h.2]
  split <;> rfl

theorem isGrid_of_mem_initial {c : Channel} (hc : c ∈ Channel.initial) : c.isGrid = false := by
  obtain ⟨key, hkey⟩ := Channel.exists_sliceKey hc
  rw [Channel.isGrid, hkey]
  rfl

theorem Polls.drain (h : r.Polls runId size starts) (returns : Returns) (grids : Bool) :
    (r.drain returns grids).Drains runId grids returns.resumeIndex := by
  refine ⟨h.1, fun c => ?_⟩
  cases hgrid : c.isGrid with
  | false =>
    rw [page?_drain r returns grids hgrid, h.2, Bool.and_false]
    split <;> rfl
  | true =>
    have hc : c ∉ Channel.initial := fun hc => by
      rw [isGrid_of_mem_initial hc] at hgrid
      cases hgrid
    rw [if_neg hc, Bool.and_true]
    cases grids with
    | true => exact page?_drain_of_isGrid r returns hgrid
    | false =>
      have hnone : r.page? c = none := (h.2 c).trans (if_neg hc)
      unfold page? at hnone
      simp [Request.drain, page?, hnone]

end Feed.Request

/-! ## Successive requests -/

section Asked

variable {size runId : Int} {grids : Bool} {pull : Nat → Request → Except Failure Returns}

/-- After these requests, which got the results of `pull` in turn, the run asks for this one. -/
inductive Asked (size : Int) (grids : Bool) (pull : Nat → Request → Except Failure Returns)
    (runId : Int) : List Request → PullKind → Request → Prop
  /-- The first request starts at 0. -/
  | first {r : Request} : r.Polls runId size (fun _ => 0) → Asked size grids pull runId [] .poll r
  /-- A request that the transport has lost is sent once more. -/
  | again {before : List Request} {kind : PullKind} {r : Request} {e : Failure} :
      Asked size grids pull runId before kind r → pull before.length r = .error e →
      e.isTransport = true → Asked size grids pull runId (before ++ [r]) kind r
  /-- While the run is alive, the next request starts where the reply says. -/
  | next {before : List Request} {r r' : Request} {returns : Returns} :
      Asked size grids pull runId before .poll r → pull before.length r = .ok returns →
      ¬returns.Exits → r'.Polls runId size returns.resumeIndex →
      Asked size grids pull runId (before ++ [r]) .poll r'
  /-- After a normal exit the last one asks for all that is left. -/
  | drain {before : List Request} {r r' : Request} {returns : Returns} :
      Asked size grids pull runId before .poll r → pull before.length r = .ok returns →
      returns.status = some "NormalExit" → r'.Drains runId grids returns.resumeIndex →
      Asked size grids pull runId (before ++ [r]) .drain r'

namespace Asked

variable {before : List Request} {kind : PullKind} {r : Request}

/-- Every request before was asked for as well. -/
theorem of_append {earlier later : List Request} {r' : Request}
    (h : Asked size grids pull runId before kind r) (hsplit : before = earlier ++ r' :: later) :
    ∃ kind', Asked size grids pull runId earlier kind' r' := by
  induction h generalizing later with
  | first => simp at hsplit
  | again h _ _ ih | next h _ _ _ ih | drain h _ _ _ ih =>
    -- The last one of them is `r'`, or `r'` is among those before the last one.
    rcases List.eq_nil_or_concat later with rfl | ⟨later, x, rfl⟩
    · obtain ⟨rfl, hr⟩ := List.append_inj' hsplit rfl
      cases hr
      exact ⟨_, h⟩
    · rw [List.concat_eq_append, ← List.cons_append, ← List.append_assoc] at hsplit
      exact ih (List.append_inj' hsplit rfl).1

/-- What a request holds, whatever came before it. -/
theorem holds (h : Asked size grids pull runId before kind r) :
    ∃ starts : Channel → Int, (∀ c, 0 ≤ starts c) ∧ kind.Holds runId size grids starts r := by
  induction h with
  | first hpolls => exact ⟨_, fun _ => Int.le_refl 0, hpolls⟩
  | again _ _ _ ih => exact ih
  | next _ _ _ hpolls => exact ⟨_, Returns.resumeIndex_nonneg _, hpolls⟩
  | drain _ _ _ hdrains => exact ⟨_, Returns.resumeIndex_nonneg _, hdrains⟩

end Asked

/-- A request is one for the run, and none of its pages starts below 0. -/
theorem PullKind.Holds.wellFormed {kind : PullKind} {starts : Channel → Int} {r : Request}
    (h : kind.Holds runId size grids starts r) (hstarts : ∀ c, 0 ≤ starts c) :
    r.runId = runId ∧ ∀ c page, r.page? c = some page → 0 ≤ page.start := by
  cases kind with
  | poll =>
    refine ⟨h.1, fun c page hpage => ?_⟩
    rw [h.2 c] at hpage
    split at hpage <;> cases hpage
    exact hstarts c
  | drain =>
    refine ⟨h.1, fun c page hpage => ?_⟩
    rw [h.2 c] at hpage
    split at hpage
    · cases hpage
      exact hstarts c
    · split at hpage <;> cases hpage
      exact Int.le_refl 0

end Asked

end LoadProbe
