/-!
# The lifecycle of a run

The server reports where a run stands as a free text. `Lifecycle.ofText` sorts those texts: three
exits are known by name, any other text with `Exit` in it is an exit of unknown kind, and
everything else means that the run is alive. `Lifecycle.terminal?` says how a run ended, from the
tester's point of view.
-/

namespace LoadProbe

/-- How a run ended. -/
inductive RunStatus where
  | success
  | error
  | canceled
deriving DecidableEq, Repr

namespace RunStatus

def text : RunStatus → String
  | success => "success"
  | error => "error"
  | canceled => "canceled"

def isSuccess : RunStatus → Bool
  | success => true
  | _ => false

end RunStatus

/-- Where a run stands, by the text that the server reports. -/
inductive Lifecycle where
  | normalExit
  | cancelExit
  | abnormalExit
  /-- An exit that has no name here. -/
  | unknownExit (text : String)
  /-- No exit: the run is alive. -/
  | running (text : String)
deriving DecidableEq, Repr

/-- `word` stands somewhere in `text`, its characters in a row. -/
def occursIn (word : List Char) : List Char → Bool
  | [] => word.isEmpty
  | c :: rest => word.isPrefixOf (c :: rest) || occursIn word rest

namespace Lifecycle

/-- The part that all exits have in their texts. -/
def exitMark : List Char := "Exit".toList

/-- The lifecycle that a reported text means. -/
def ofText (text : String) : Lifecycle :=
  if text = "NormalExit" then .normalExit
  else if text = "CancelExit" then .cancelExit
  else if text = "AbnormalExit" then .abnormalExit
  else if occursIn exitMark text.toList then .unknownExit text
  else .running text

/-- The reported text. -/
def text : Lifecycle → String
  | normalExit => "NormalExit"
  | cancelExit => "CancelExit"
  | abnormalExit => "AbnormalExit"
  | unknownExit t => t
  | running t => t

/-- How the run ended, `none` while it is alive. -/
def terminal? : Lifecycle → Option RunStatus
  | normalExit => some .success
  | cancelExit => some .canceled
  | abnormalExit => some .error
  | unknownExit _ => some .error
  | running _ => none

/-- The name of the case that a lifecycle falls into. -/
def caseName : Lifecycle → String
  | normalExit => "NormalExit"
  | cancelExit => "CancelExit"
  | abnormalExit => "AbnormalExit"
  | unknownExit _ => "UnknownExit"
  | running _ => "Running"

end Lifecycle

end LoadProbe
