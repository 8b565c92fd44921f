import LoadProbe.Feed.Request
import LoadProbe.Json.Printer

/-!
# Commands to the facade

Every command is one JSON object: the credentials, the name of the command, and the fields of the
command itself. `Command.body` is that object with its members in the order of writing, and
`Command.text` the exact text that is sent.
-/

namespace LoadProbe.Facade

open Feed

/-- What a run of a strategy is started with. -/
structure PlayParams where
  code : String
  owner : String
  title : String
  timeUnit : String
  language : String
  startDate : Nat
  endDate : Nat
  initialCash : Float
  runType : String
  portfolioName : Option String
  benchmarkName : Option String

namespace PlayParams

/-- A daily backtest over the year 2014, without code. -/
def standard : PlayParams where
  code := ""
  owner := ""
  title := ""
  timeUnit := "d"
  language := "python"
  startDate := 20140101
  endDate := 20150101
  initialCash := 100000.0
  runType := "backtest"
  portfolioName := none
  benchmarkName := none

/-- A name, or `null` where there is none. -/
def nameOrNull : Option String → Json
  | some name => .str name
  | none => .null

/-- The members of a play command, in the order of writing. -/
def members (p : PlayParams) : List (String × Json) :=
  [("code", .str p.code), ("owner", .str p.owner), ("title", .str p.title),
    ("time-unit", .str p.timeUnit), ("language", .str p.language),
    ("start-date", .int p.startDate), ("end-date", .int p.endDate),
    ("initial-cash", .float p.initialCash), ("run-type", .str p.runType),
    ("portfolio-name", nameOrNull p.portfolioName),
    ("benchmark-name", nameOrNull p.benchmarkName)]

end PlayParams

/-- The precision that every page asks for. -/
def pagePrecision : Int := 1

/-- The window of a channel, as it is sent. -/
def pageJson (c : Channel) (page : Page) : Json :=
  .obj [("portfolio-name", .str c.portfolio), ("start-index", .int page.start),
    ("length", .int page.length), ("precision", .int pagePrecision)]

/-- A pull request, as it is sent: the run id, then the pages in channel order. -/
def requestJson (r : Request) : Json :=
  .obj (("run-id", .int r.runId) :: r.pages.toList.map fun (c, page) => (c.key, pageJson c page))

/-- A command with its own fields. -/
inductive Command where
  | play (params : PlayParams)
  | pull (request : Request)
  | stop (runId : Int)
  | stopAll

namespace Command

def name : Command → String
  | play _ => "play"
  | pull _ => "pull"
  | stop _ => "stop"
  | stopAll => "stop-all"

/-- The members that a command has besides the credentials and its name. -/
def members : Command → List (String × Json)
  | play params => params.members
  | pull request => [("feeds-params", requestJson request)]
  | stop runId => [("run-id", .int runId)]
  | stopAll => []

end Command

/-- The account that every command is sent for. -/
structure Account where
  username : String
  password : String
deriving DecidableEq, Repr

/-- The object that is sent for a command. -/
def Command.body (account : Account) (c : Command) : Json :=
  .obj (("username", .str account.username) :: ("password", .str account.password) ::
    ("command", .str c.name) :: c.members)

/-- The text that is sent for a command. -/
def Command.text (account : Account) (c : Command) : String :=
  (c.body account).print

end LoadProbe.Facade
