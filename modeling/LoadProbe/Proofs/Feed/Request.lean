import LoadProbe.Feed.Request
import LoadProbe.Proofs.Run.Lifecycle

/-!
# The pages of successive requests

The pages of the first request, of a request after a reply and of the last request, channel by
channel; and the decision that a run rests on after each pull, whether a reply moves any page
(`Request.next_eq_self_iff`) and whether it ends the run (`Returns.terminal?_eq_none`).
-/

namespace LoadProbe.Feed

/-! ## The results of a pull -/

namespace Returns

variable {r : Returns}

/-- The results carry the text of an exit. -/
def Exits (r : Returns) : Prop :=
  ∃ text, r.status = some text ∧ Lifecycle.MarksExit text

theorem terminal?_eq_none : r.lifecycle.terminal? = .none ↔ ¬r.Exits := by
  unfold Exits lifecycle
  cases r.status with
  | none => simp [Lifecycle.terminal?]
  | some text => simp [Lifecycle.terminal?_ofText_eq_none]

theorem terminal?_eq_success :
    r.lifecycle.terminal? = some .success ↔ r.status = some "NormalExit" := by
  unfold lifecycle
  cases r.status with
  | none => simp [Lifecycle.terminal?]
  | some text => simp [Lifecycle.terminal?_ofText_eq_success]

theorem terminal?_eq_canceled :
    r.lifecycle.terminal? = some .canceled ↔ r.status = some "CancelExit" := by
  unfold lifecycle
  cases r.status with
  | none => simp [Lifecycle.terminal?]
  | some text => simp [Lifecycle.terminal?_ofText_eq_canceled]

end Returns

/-! ## Requests -/

namespace Request

variable {r : Request} {returns : Returns}

/-- Every subscribed page starts where the reply says that the next one should. -/
def Unmoved (r : Request) (returns : Returns) : Prop :=
  ∀ c page, r.page? c = some page → returns.resumeIndex c = page.start

/-- The next request is the same one exactly when no page moves. -/
theorem next_eq_self_iff : r.next returns = r ↔ r.Unmoved returns := by
  constructor
  · intro h c page hpage
    have hnext := page?_next r returns c
    rw [h, hpage, Option.map_some, Option.some.injEq] at hnext
    exact (congrArg Page.start hnext).symm
  · intro h
    refine ext rfl fun c => ?_
    rw [page?_next]
    cases hpage : r.page? c with
    | none => rfl
    | some page => rw [Option.map_some, h c page hpage]

instance : Decidable (r.Unmoved returns) :=
  decidable_of_iff _ next_eq_self_iff

/-- The first request subscribes the initial channels from their start. -/
theorem page?_initial (runId size : Int) (c : Channel) :
    (initial runId size).page? c = if c ∈ Channel.initial then some ⟨0, size⟩ else none := by
  cases c <;> rfl

/-- The last request asks for all that is left of a channel that was subscribed. -/
theorem page?_drain (r : Request) (returns : Returns) (grids : Bool) {c : Channel}
    (hc : c.isGrid = false) :
    (r.drain returns grids).page? c =
      (r.page? c).map fun _ => ⟨returns.resumeIndex c, unboundedLength⟩ := by
  have hne : Channel.riskGrids ≠ c ∧ Channel.portfolioGrids ≠ c := by
    constructor <;> rintro rfl <;> cases hc
  have hrest : (r.drain returns false).page? c =
      (r.page? c).map fun _ => ⟨returns.resumeIndex c, unboundedLength⟩ := by
    simp only [drain, page?, Bool.false_eq_true, if_false, Table.get?_filterMap, hc,
      Option.map_eq_bind]
    rfl
  cases grids with
  | false => exact hrest
  | true =>
    simp only [drain, page?, if_true, Table.get?_insert, if_neg hne.1, if_neg hne.2]
    exact hrest

/-- When the grids are wanted, it asks for all of them. -/
theorem page?_drain_of_isGrid (r : Request) (returns : Returns) {c : Channel}
    (hc : c.isGrid = true) : (r.drain returns true).page? c = some ⟨0, unboundedLength⟩ := by
  cases c with
  | portfolioGrids | riskGrids => simp [drain, page?, Table.get?_insert]
  | _ => cases hc

end Request

end LoadProbe.Feed
