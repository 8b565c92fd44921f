/-!
# Why a command failed

Only the loss of the request, of its reply or of the body of a success is a failure of the
transport; in every other case the server did answer.
-/

namespace LoadProbe.Facade

/-- What was wrong with a reply that could not be read. -/
inductive ReplyDefect where
  /-- The body is not a JSON document. -/
  | notJson
  /-- The reply of a pull has no well formed status envelope. -/
  | malformedPull
  /-- The reply of a pull has no results. -/
  | withoutResults
  /-- Any other defect, in words. -/
  | other (text : String)
deriving DecidableEq, Repr

/-- Why a command failed. -/
inductive Failure where
  /-- No reply was received, or a success without its whole body. -/
  | transport
  /-- The reply has an HTTP status that means no success. -/
  | api (status : Nat) (body : String)
  /-- The server answered with an application status other than zero, or with none. -/
  | rejected (status : Option Int) (reply : String)
  /-- The reply could not be read. -/
  | unreadable (defect : ReplyDefect)
deriving DecidableEq, Repr

namespace ReplyDefect

/-- The text of a defect. The account of what exactly was malformed is left out: the text ends
where it would start. -/
def text : ReplyDefect → String
  | notJson => "Failed to parse JSON response: "
  | malformedPull => "Malformed pull reply: "
  | withoutResults => "Pull reply without results"
  | other t => t

end ReplyDefect

namespace Failure

/-- A failure of the transport: the server may not have seen the command. -/
def isTransport : Failure → Bool
  | transport => true
  | _ => false

/-- The application status in a message. -/
def statusText : Option Int → String
  | some n => "Some(" ++ Int.repr n ++ ")"
  | none => "None"

/-- The message of a failure. -/
def message : Failure → String
  | transport => "HTTP request failed: "
  | api status body => "API error (status " ++ Nat.repr status ++ "): " ++ body
  | rejected status reply => "Command rejected (status " ++ statusText status ++ "): " ++ reply
  | unreadable defect => "Failed to parse response: " ++ defect.text

/-- The name of the case that a failure falls into. -/
def caseName : Failure → String
  | transport => "RequestFailed"
  | api _ _ => "ApiError"
  | rejected _ _ => "Rejected"
  | unreadable _ => "ParseError"

end Failure

end LoadProbe.Facade
