import LoadProbe.Facade.Failure
import LoadProbe.Feed.Returns
import LoadProbe.Json.Printer

/-!
# What a reply means

Every reply carries a status envelope: an application status, where 0 means that the command was
accepted, and a reason. Play and pull read the envelope out of an object (`Envelope.ofObject?`).
Stop and stop-all read it out of an object or out of an array that lists exactly its two fields
(`Envelope.ofFields?`), and take a reply without a well formed envelope for one without a status.
-/

namespace LoadProbe.Facade

open Feed

/-- The application status of a reply and the reason for it. -/
structure Envelope where
  status : Option Int
  reason : Option String
deriving DecidableEq, Repr

/-- An optional integer of a signed word of 64 bits. The outer `none` is a value of another
kind. -/
def optionalInt? : Option Json → Option (Option Int)
  | none => some none
  | some .null => some none
  | some (.int n) => if Number.signed64.contains n then some (some n) else none
  | some _ => none

/-- An optional text. The outer `none` is a value of another kind. -/
def optionalText? : Option Json → Option (Option String)
  | none => some none
  | some .null => some none
  | some (.str s) => some (some s)
  | some _ => none

namespace Envelope

/-- The command was accepted. -/
def accepted (e : Envelope) : Bool :=
  e.status == some 0

/-- The envelope of an object, `none` when it is malformed or when the value is no object. -/
def ofObject? (v : Json) : Option Envelope :=
  match v with
  | .obj _ => do
    let status ← optionalInt? (v.get? "status")
    let reason ← optionalText? (v.get? "reason")
    return ⟨status, reason⟩
  | _ => none

/-- The envelope of an object, or of an array that lists its two fields. -/
def ofFields? (v : Json) : Option Envelope :=
  match v with
  | .arr [status, reason] => do
    let status ← optionalInt? (some status)
    let reason ← optionalText? (some reason)
    return ⟨status, reason⟩
  | _ => ofObject? v

end Envelope

/-- The server's answer to a play command. -/
inductive PlayAnswer where
  /-- The run has started under this id. -/
  | started (runId : Int)
  /-- The server refused to start the run. -/
  | refused (reason : String)
deriving DecidableEq, Repr

/-- The answer that a play reply means. A malformed reply is a refusal whose reason ends where
the account of the defect would start. -/
def PlayAnswer.ofReply (v : Json) : PlayAnswer :=
  match Envelope.ofObject? v, optionalInt? (v.get? "run-id") with
  | some e, some runId =>
    if e.accepted then
      match runId with
      | some id => .started id
      | none => .refused "Run id not set by server"
    else .refused (e.reason.getD "Fail reason not set by server")
  | _, _ => .refused "Malformed play reply: "

/-- The results of a pull reply, or why there are none. -/
def pullResults (v : Json) : Except Failure Json :=
  match Envelope.ofObject? v with
  | none => .error (.unreadable .malformedPull)
  | some e =>
    if e.accepted then
      match v.get? "results" with
      | none => .error (.unreadable .withoutResults)
      | some .null => .error (.unreadable .withoutResults)
      | some results => .ok results
    else .error (.rejected e.status v.print)

/-- What a pull reply brings. -/
def pullReturns (v : Json) : Except Failure Returns :=
  (pullResults v).map Returns.ofResults

/-- Whether a reply accepts a stop or stop-all command. -/
def stopAccepted (v : Json) : Except Failure Unit :=
  let e := (Envelope.ofFields? v).getD ⟨none, none⟩
  if e.accepted then .ok () else .error (.rejected e.status v.print)

end LoadProbe.Facade
