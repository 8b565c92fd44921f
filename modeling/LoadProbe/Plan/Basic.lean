import LoadProbe.Facade.Command
import LoadProbe.Pass.Controller

/-!
# Plans

A plan says which facade is stressed, for which account, how the passes of all scenarios are
steered, and which scenarios there are. Each entry of a plan names the file with the code of its
strategy and the time that the strategy is tested over.
-/

namespace LoadProbe

open Facade

/-- The length of the bars that a strategy is fed with. -/
inductive Bar where
  | day
  | minute
deriving DecidableEq, Repr

/-- The name of a bar in a plan. -/
def Bar.name : Bar → String
  | day => "day"
  | minute => "minute"

/-- The unit of time that a play command asks for. -/
def Bar.unit : Bar → String
  | day => "d"
  | minute => "m"

/-- A scenario as a plan names it. -/
structure PlanEntry where
  enabled : Bool
  title : String
  /-- The path of the file with the code. -/
  strategy : String
  startDate : Nat
  endDate : Nat
  initialCash : Float
  bar : Bar
  /-- The time in milliseconds after which a run is asked to stop; 0 never stops runs. -/
  timeout : Nat
  trials : Nat
  grids : Bool

structure Plan where
  url : String
  account : Account
  /-- What steers the passes, as it is written. -/
  written : Pass.Settings
  entries : List PlanEntry

/-- What steers the passes: the first of them is no larger than the bound. -/
def Plan.settings (p : Plan) : Pass.Settings :=
  { p.written with initial := min p.written.initial p.written.upper }

end LoadProbe
