import LoadProbe.Plan.Basic
import LoadProbe.Yaml.Typed

/-!
# Reading plans

A plan is written in YAML: the `server`, and the `scenarios` with what steers their passes and the
list of them. Every field has one name and one type; some may be left out.
-/

namespace LoadProbe

open Yaml Number

namespace Bar

def all : List Bar := [day, minute]

/-- The bar with a name. -/
def ofName? (name : String) : Option Bar := all.find? fun b => b.name == name

end Bar

namespace PlanEntry

/-- The fields of an entry. -/
def fieldNames : List String :=
  ["enabled", "title", "strategy", "start-date", "end-date", "initial-cash", "bar-type",
    "timeout-millis", "num-initial-speed-test-runs", "pull-grids"]

/-- The entry that a node stands for. -/
def ofNode? (d : Document) (n : Node) : Typed PlanEntry := do
  let fields ← d.record? fieldNames n
  let natural (name : String) (r : Range) : Typed Nat := do
    return (← field? fields name (d.integer? r)).toNat
  return {
    enabled := ← fieldOr? fields "enabled" true d.flag?
    title := ← field? fields "title" d.text?
    strategy := ← field? fields "strategy" d.text?
    startDate := ← natural "start-date" unsigned32
    endDate := ← natural "end-date" unsigned32
    initialCash := ← field? fields "initial-cash" d.real?
    bar := ← Bar.ofName? (← field? fields "bar-type" (d.word? (Bar.all.map Bar.name)))
    timeout := ← natural "timeout-millis" unsigned64
    trials := ← natural "num-initial-speed-test-runs" unsigned32
    grids := ← fieldOr? fields "pull-grids" true d.flag? }

end PlanEntry

namespace Plan

/-- The fields that say what steers the passes, and the list of scenarios. -/
def scenariosFieldNames : List String :=
  ["expand-grow-factor", "refine-grow-factor", "refine-shrink-factor",
    "overtime-tolerance-multiplier", "initial-parallel-runs", "max-refine-runs",
    "success-tolerance-percentage", "theoretical-upper-bound", "compat-recursion", "scenario"]

/-- What steers the passes, in the fields of the scenarios. -/
def settingsOf? (d : Document) (fields : List (String × Node)) :
    Typed Pass.Settings := do
  return {
    initial := ← field? fields "initial-parallel-runs" (d.integer? signed64)
    upper := ← field? fields "theoretical-upper-bound" (d.integer? signed64)
    expand := ← field? fields "expand-grow-factor" d.real?
    refine := ← field? fields "refine-grow-factor" d.real?
    shrink := ← field? fields "refine-shrink-factor" d.real?
    overtime := ← field? fields "overtime-tolerance-multiplier" d.real?
    success := ← field? fields "success-tolerance-percentage" d.real?
    maxRefine := (← field? fields "max-refine-runs" (d.integer? unsigned32)).toNat
    compat := ← fieldOr? fields "compat-recursion" false d.flag? }

/-- The plan that the root of a document stands for. -/
def ofRoot? (d : Document) : Typed Plan := do
  let root ← d.record? ["server", "scenarios"] d.root
  let server ← field? root "server" (d.record? ["url", "username", "password"])
  let scenarios ← field? root "scenarios" (d.record? scenariosFieldNames)
  let entries ← fieldOr? scenarios "scenario" [] fun n => do
    (← d.items? n).mapM (PlanEntry.ofNode? d)
  return {
    url := ← field? server "url" d.text?
    account := {
      username := ← field? server "username" d.text?
      password := ← fieldOr? server "password" "" d.text? }
    written := ← settingsOf? d scenarios
    entries := entries }

/-- The plan that a document stands for. -/
def ofDocument? (d : Document) : Option Plan :=
  (ofRoot? d).run' d.patience

/-- The plan that a text holds. -/
def read? (text : String) : Option Plan := do
  ofDocument? (← Document.read? text)

end Plan

end LoadProbe
