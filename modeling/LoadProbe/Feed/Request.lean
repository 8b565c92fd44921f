import LoadProbe.Feed.Returns

/-!
# Pull requests

A request names a run and, for each channel that it subscribes, a page: where to start and how
many items at most. The request after a reply (`Request.next`) starts each page where the reply
says; the last request of a run (`Request.drain`) asks for everything that is left.
-/

namespace LoadProbe.Feed

/-- The requested window of a channel. -/
structure Page where
  start : Int
  length : Int
deriving DecidableEq, Repr

/-- A pull request for one run. -/
structure Request where
  runId : Int
  pages : Table Page
deriving DecidableEq

/-- The page length that asks for everything that is left. -/
def unboundedLength : Int := 2147483647

/-- The page length of the regular pulls. -/
def defaultPageSize : Int := 100

namespace Request

/-- A request that subscribes nothing. -/
def empty (runId : Int) : Request := ⟨runId, .empty⟩

/-- The request with `c` subscribed at `page`. -/
def withPage (r : Request) (c : Channel) (page : Page) : Request :=
  { r with pages := r.pages.insert c page }

/-- The first pull of a run: the initial channels from their start. -/
def initial (runId : Int) (pageSize : Int) : Request :=
  Channel.initial.foldl (fun r c => r.withPage c ⟨0, pageSize⟩) (empty runId)

/-- The page of a channel. -/
def page? (r : Request) (c : Channel) : Option Page :=
  r.pages.get? c

/-- The pull after a reply of a run that is alive: the same channels and lengths, each page
starting where the reply says. -/
def next (r : Request) (returns : Returns) : Request :=
  { r with pages := r.pages.filterMap fun c page => some ⟨returns.resumeIndex c, page.length⟩ }

/-- The pull after a normal exit: everything that is left of the subscribed feeds, and the grids
from their start if they are wanted. -/
def drain (r : Request) (returns : Returns) (grids : Bool) : Request :=
  let rest : Table Page := r.pages.filterMap fun c _ =>
    if c.isGrid then none else some ⟨returns.resumeIndex c, unboundedLength⟩
  let pages := if grids then
      (rest.insert .riskGrids ⟨0, unboundedLength⟩).insert .portfolioGrids ⟨0, unboundedLength⟩
    else rest
  { r with pages := pages }

@[simp] theorem runId_withPage (r : Request) (c : Channel) (page : Page) :
    (r.withPage c page).runId = r.runId := rfl

@[simp] theorem runId_next (r : Request) (returns : Returns) : (r.next returns).runId = r.runId :=
  rfl

@[simp] theorem runId_drain (r : Request) (returns : Returns) (grids : Bool) :
    (r.drain returns grids).runId = r.runId := rfl

theorem page?_withPage (r : Request) (c d : Channel) (page : Page) :
    (r.withPage c page).page? d = if c = d then some page else r.page? d :=
  Table.get?_insert r.pages c d page

@[simp] theorem page?_next (r : Request) (returns : Returns) (c : Channel) :
    (r.next returns).page? c = (r.page? c).map fun p => ⟨returns.resumeIndex c, p.length⟩ := by
  simp only [next, page?, Table.get?_filterMap, Option.map_eq_bind]
  rfl

/-- Requests for one run that have the same page on every channel are equal. -/
theorem ext {r s : Request} (hid : r.runId = s.runId) (h : ∀ c, r.page? c = s.page? c) : r = s := by
  obtain ⟨rid, rp⟩ := r
  obtain ⟨sid, sp⟩ := s
  have : rp = sp := Table.ext h
  simp_all

end Request

end LoadProbe.Feed
