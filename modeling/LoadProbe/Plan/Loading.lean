import LoadProbe.Files
import LoadProbe.Plan.Fault
import LoadProbe.Plan.Reader

/-!
# Loading plans

A plan is loaded from a file: the file is read, the plan in it is read, and its faults are looked
for. What goes wrong first is the failure that is reported.
-/

namespace LoadProbe

/-- Why a plan could not be loaded. -/
inductive LoadFailure where
  /-- There is no text at the path. -/
  | unreadable (path : String)
  /-- The text is no plan. -/
  | malformed (path : String)
  | unsound (fault : PlanFault)
deriving DecidableEq, Repr

def LoadFailure.message : LoadFailure → String
  | unreadable path => "Failed to read config file " ++ path
  | malformed path => "Failed to parse config file " ++ path
  | unsound fault => fault.message

namespace Plan

/-- The plan in the file at a path. -/
def load (files : Files) (path : String) : Except LoadFailure Plan :=
  match files.text? path with
  | none => .error (.unreadable path)
  | some text =>
    match read? text with
    | none => .error (.malformed path)
    | some p =>
      match p.fault? with
      | some fault => .error (.unsound fault)
      | none => .ok p

/-- A plan that has been loaded has no faults. -/
theorem sound_of_load {files : Files} {path : String} {p : Plan} (h : load files path = .ok p) :
    p.Sound := by
  unfold load at h
  split at h
  · cases h
  · split at h
    · cases h
    · split at h
      · cases h
      · cases h
        exact fault?_eq_none_iff.mp ‹_›

end Plan

end LoadProbe
