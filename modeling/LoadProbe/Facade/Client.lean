import LoadProbe.Facade.Command
import LoadProbe.Facade.Reply
import LoadProbe.Json.Reader
import LoadProbe.Notice

/-!
# The client of the facade

The facade is one address to which every command is posted. What comes back is an `Exchange`: a
complete HTTP reply, one that breaks off in its body, or nothing. `Exchange.document` sorts out the
replies that are no success and the bodies that are missing or no JSON, and the functions after it
read the reply of each command.
-/

namespace LoadProbe.Facade

open Feed

/-- The address of the facade, and the account that its commands are sent for. -/
structure Endpoint where
  url : String
  account : Account
deriving DecidableEq, Repr

/-- A text without the slashes at its end. -/
def trimSlashes (url : String) : String :=
  String.ofList (url.toList.reverse.dropWhile (· = '/')).reverse

/-- What follows `mark` in a text, from the first place where `mark` stands. -/
def afterMark (mark : List Char) : List Char → List Char
  | [] => []
  | c :: rest =>
    if mark.isPrefixOf (c :: rest) then (c :: rest).drop mark.length else afterMark mark rest

namespace Endpoint

/-- The facade at an address. -/
def ofUrl (url : String) (account : Account) : Endpoint :=
  ⟨trimSlashes url, account⟩

/-- The path that requests are sent to: what follows the host, without the fragment, and `/` at
least. -/
def path (e : Endpoint) : String :=
  let behind := (afterMark "://".toList e.url.toList).dropWhile fun c =>
    c != '/' && c != '?' && c != '#'
  let sent := behind.takeWhile (· != '#')
  match sent with
  | '/' :: _ => String.ofList sent
  | _ => String.ofList ('/' :: sent)

end Endpoint

/-- A request as the server receives it. -/
structure Post where
  path : String
  contentType : String
  body : String
deriving DecidableEq, Repr

/-- What is sent for a command. -/
def Endpoint.post (e : Endpoint) (c : Command) : Post :=
  ⟨e.path, "application/json", c.text e.account⟩

/-- What comes back for a request. -/
inductive Exchange where
  /-- No reply. -/
  | lost
  /-- A reply with its HTTP status, which breaks off before its body has ended. -/
  | broken (status : Nat)
  /-- A complete reply with its HTTP status. -/
  | answered (status : Nat) (body : String)
deriving DecidableEq, Repr

/-- The HTTP statuses that mean success. -/
def isSuccessStatus (status : Nat) : Bool :=
  decide (200 ≤ status) && decide (status ≤ 299)

/-- The text of a body: a byte order mark at its start is no part of it. -/
def bodyText (body : String) : String :=
  match body.toList with
  | '\ufeff' :: rest => String.ofList rest
  | _ => body

/-- The document that a reply holds. A status that means no success is reported also when the body
that would explain it is missing. -/
def Exchange.document : Exchange → Except Failure Json
  | .lost => .error .transport
  | .broken status =>
    .error (if isSuccessStatus status then .transport else .api status "Unknown error")
  | .answered status body =>
    if isSuccessStatus status then
      match Json.read? (bodyText body) with
      | some v => .ok v
      | none => .error (.unreadable .notJson)
    else .error (.api status (bodyText body))

/-- What a play command comes to. -/
def Exchange.play (x : Exchange) : Except Failure PlayAnswer :=
  x.document.map PlayAnswer.ofReply

/-- What a pull command comes to. -/
def Exchange.pull (x : Exchange) : Except Failure Returns :=
  x.document.bind pullReturns

/-- What a stop or stop-all command comes to. -/
def Exchange.stop (x : Exchange) : Except Failure Unit :=
  x.document.bind stopAccepted

/-- What is reported of a pull: a reply whose status rejects it. -/
def Exchange.pullNotices (x : Exchange) : List Notice :=
  match x.pull with
  | .error (.rejected _ reply) => [.pullRejected reply]
  | _ => []

/-- What a command came to. -/
inductive Answer where
  | played (answer : PlayAnswer)
  | pulled (returns : Returns)
  | accepted

/-- What any command comes to. -/
def Exchange.answer (x : Exchange) : Command → Except Failure Answer
  | .play _ => x.play.map .played
  | .pull _ => x.pull.map .pulled
  | .stop _ => x.stop.map fun _ => .accepted
  | .stopAll => x.stop.map fun _ => .accepted

/-- What is reported of any command. -/
def Exchange.notices (x : Exchange) : Command → List Notice
  | .pull _ => x.pullNotices
  | _ => []

/-- The way from the client to a server. -/
inductive Route where
  /-- Requests arrive and replies come back. -/
  | direct
  /-- No connection comes about. -/
  | cut
deriving DecidableEq, Repr

/-- What arrives at the server. -/
def Route.arriving (r : Route) (post : Post) : List Post :=
  match r with
  | .direct => [post]
  | .cut => []

/-- What comes back to the client when the server would reply so. -/
def Route.exchange (r : Route) (reply : Exchange) : Exchange :=
  match r with
  | .direct => reply
  | .cut => .lost

end LoadProbe.Facade
