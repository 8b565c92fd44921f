/-!
# Feed channels

A running strategy produces ten independent feeds. A channel is known to the server by its key,
is addressed to a portfolio, and holds its items under a slice key, except for the two grids,
which come as bare arrays. `Table α` holds at most one `α` a channel.
-/

namespace LoadProbe.Feed

/-- A feed of a run. -/
inductive Channel where
  | portfolios
  | benchmarkPortfolios
  | positions
  | risks
  | trades
  | orders
  | logs
  | plots
  | portfolioGrids
  | riskGrids
deriving DecidableEq, Repr

namespace Channel

/-- All channels, in channel order. -/
def all : List Channel :=
  [portfolios, benchmarkPortfolios, positions, risks, trades, orders, logs, plots,
    portfolioGrids, riskGrids]

theorem mem_all (c : Channel) : c ∈ all := by
  cases c <;> decide

/-- The channels that the first pull of a run subscribes. -/
def initial : List Channel :=
  [portfolios, benchmarkPortfolios, positions, risks, trades]

/-- The place of a channel in channel order. -/
def index : Channel → Fin 10
  | portfolios => 0
  | benchmarkPortfolios => 1
  | positions => 2
  | risks => 3
  | trades => 4
  | orders => 5
  | logs => 6
  | plots => 7
  | portfolioGrids => 8
  | riskGrids => 9

theorem index_inj {a b : Channel} (h : a.index = b.index) : a = b := by
  revert h
  cases a <;> cases b <;> decide

/-- The name of a channel in requests and replies. -/
def key : Channel → String
  | portfolios => "portfolios"
  | benchmarkPortfolios => "benchmark-portfolios"
  | positions => "positions"
  | risks => "risks"
  | trades => "trades"
  | orders => "orders"
  | logs => "logs"
  | plots => "plots"
  | portfolioGrids => "portfolio-grids"
  | riskGrids => "risk-grids"

theorem key_inj {a b : Channel} (h : a.key = b.key) : a = b := by
  revert h
  cases a <;> cases b <;> decide

/-- The channel of a name. -/
def ofKey? (key : String) : Option Channel :=
  all.find? (·.key = key)

/-- The portfolio that a channel is addressed to: the benchmark or the traded one. -/
def portfolio : Channel → String
  | benchmarkPortfolios => "b"
  | _ => "p"

/-- The name of the array of items inside a channel's part of a reply; grids have none. -/
def sliceKey? : Channel → Option String
  | portfolios => some "Portfolios"
  | benchmarkPortfolios => some "Portfolios"
  | positions => some "Positions"
  | risks => some "PortfolioRisks"
  | trades => some "Trades"
  | orders => some "Orders"
  | logs => some "Logs"
  | plots => some "Plots"
  | portfolioGrids => none
  | riskGrids => none

/-- A grid channel: its part of a reply is a bare array. -/
def isGrid (c : Channel) : Bool :=
  c.sliceKey?.isNone

end Channel

/-- At most one `α` for each channel. -/
structure Table (α : Type) where
  cells : Vector (Option α) 10
deriving DecidableEq

namespace Table

variable {α β : Type}

/-- The table of a function on channels. -/
def ofFn (f : Channel → Option α) : Table α :=
  ⟨#v[f .portfolios, f .benchmarkPortfolios, f .positions, f .risks, f .trades, f .orders, f .logs,
    f .plots, f .portfolioGrids, f .riskGrids]⟩

/-- The table that holds nothing. -/
def empty : Table α := ofFn fun _ => none

/-- What the table holds for a channel. -/
def get? (t : Table α) (c : Channel) : Option α :=
  t.cells[c.index]

/-- Puts an `α` in the place of a channel. -/
def insert (t : Table α) (c : Channel) (a : α) : Table α :=
  ⟨t.cells.set c.index (some a)⟩

/-- Changes what the table holds for each channel. -/
def filterMap (f : Channel → α → Option β) (t : Table α) : Table β :=
  ofFn fun c => (t.get? c).bind (f c)

/-- The channels of the table with what it holds for them, in channel order. -/
def toList (t : Table α) : List (Channel × α) :=
  Channel.all.filterMap fun c => (t.get? c).map fun a => (c, a)

/-- How many channels the table holds something for. -/
def size (t : Table α) : Nat :=
  t.toList.length

@[simp] theorem get?_ofFn (f : Channel → Option α) (c : Channel) : (ofFn f).get? c = f c := by
  cases c <;> rfl

@[simp] theorem get?_empty (c : Channel) : (empty : Table α).get? c = none :=
  get?_ofFn _ c

theorem get?_insert (t : Table α) (c d : Channel) (a : α) :
    (t.insert c a).get? d = if c = d then some a else t.get? d := by
  unfold insert get?
  simp only [Fin.getElem_fin, Vector.getElem_set]
  by_cases h : c = d
  · simp [h]
  · have hi : (c.index : Nat) ≠ (d.index : Nat) := fun hv => h (Channel.index_inj (Fin.ext hv))
    simp [h, hi]

@[simp] theorem get?_filterMap (f : Channel → α → Option β) (t : Table α) (c : Channel) :
    (t.filterMap f).get? c = (t.get? c).bind (f c) := by
  simp [filterMap]

/-- Tables that hold the same for every channel are equal. -/
theorem ext {s t : Table α} (h : ∀ c, s.get? c = t.get? c) : s = t := by
  obtain ⟨s⟩ := s
  obtain ⟨t⟩ := t
  congr
  apply Vector.ext
  intro i hi
  have key : ∀ c : Channel, s[c.index] = t[c.index] := h
  match i, hi with
  | 0, _ => exact key .portfolios
  | 1, _ => exact key .benchmarkPortfolios
  | 2, _ => exact key .positions
  | 3, _ => exact key .risks
  | 4, _ => exact key .trades
  | 5, _ => exact key .orders
  | 6, _ => exact key .logs
  | 7, _ => exact key .plots
  | 8, _ => exact key .portfolioGrids
  | 9, _ => exact key .riskGrids

theorem mem_toList {t : Table α} {c : Channel} {a : α} : (c, a) ∈ t.toList ↔ t.get? c = some a := by
  simp only [toList, List.mem_filterMap, Option.map_eq_some_iff, Prod.mk.injEq]
  constructor
  · rintro ⟨c', -, a', hget, rfl, rfl⟩
    exact hget
  · intro hget
    exact ⟨c, Channel.mem_all c, a, hget, rfl, rfl⟩

/-- A table is told by what it lists. -/
theorem toList_inj {s t : Table α} (h : s.toList = t.toList) : s = t := by
  refine ext fun c => Option.ext fun a => ?_
  rw [← mem_toList, ← mem_toList, h]

end Table

end LoadProbe.Feed
