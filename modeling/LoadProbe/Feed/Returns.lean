import LoadProbe.Feed.Channel
import LoadProbe.Json.Value
import LoadProbe.Number.Word
import LoadProbe.Run.Lifecycle

/-!
# What a pull brings

The results of a pull carry the lifecycle text of the run and, for some channels, a slice: the
items and the index that the next pull should start from. `Returns.ofResults` reads them out of a
JSON value. It never fails: what is missing or malformed is absent, a malformed slice is an empty
one, and a channel's slice depends on the member at that channel's key alone.
-/

namespace LoadProbe.Feed

/-- One channel's part of the results of a pull. -/
structure Slice where
  /-- Where the server says that the next pull should start. -/
  nextIndex : Option Int
  items : List Json

/-- What the results of a pull carry. -/
structure Returns where
  status : Option String
  slices : Table Slice

namespace Returns

/-- No status and no slices. -/
def none : Returns := ⟨Option.none, .empty⟩

/-- An integer of a signed word of 64 bits; no other value is an index. -/
def index? : Json → Option Int
  | .int n => if Number.signed64.contains n then some n else Option.none
  | _ => Option.none

/-- The slice of a channel, out of the member at its key. -/
def slice (c : Channel) (raw : Json) : Slice :=
  match c.sliceKey? with
  | some key =>
    { nextIndex := (raw.get? "NextIndex").bind index?
      items := ((raw.get? key).map Json.itemsOrNone).getD [] }
  | Option.none => { nextIndex := Option.none, items := raw.itemsOrNone }

/-- The lifecycle text of the results of a pull. -/
def status? (results : Json) : Option String := do
  let status ← results.get? "status"
  let text ← status.get? "LifeCycleStatus"
  text.text?

/-- What the results of a pull carry. -/
def ofResults (results : Json) : Returns where
  status := status? results
  slices := .ofFn fun c => (results.get? c.key).map (slice c)

/-- Where the run stands; without a status it is alive. -/
def lifecycle (r : Returns) : Lifecycle :=
  match r.status with
  | some text => .ofText text
  | Option.none => .running ""

/-- Where the next pull of a channel starts: at the index that the server gave, or at 0 when it
gave none or a negative one. -/
def resumeIndex (r : Returns) (c : Channel) : Int :=
  match (r.slices.get? c).bind (·.nextIndex) with
  | some n => if 0 ≤ n then n else 0
  | Option.none => 0

theorem resumeIndex_nonneg (r : Returns) (c : Channel) : 0 ≤ r.resumeIndex c := by
  unfold resumeIndex
  split
  · split <;> omega
  · omega

/-- How many items the pull brought, over all channels. -/
def itemCount (r : Returns) : Nat :=
  r.slices.toList.foldr (fun s n => s.2.items.length + n) 0

end Returns

end LoadProbe.Feed
