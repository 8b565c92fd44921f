import LoadProbe.Log.Directive
import LoadProbe.Notice

/-!
# Which log lines are shown

Every notice comes from a part of the program, named by its path of modules. A filter is a list of
directives, each of which shows the lines of some parts down to a level; where several directives
are about a line, the one that says the most about it decides. A filter that asks for nothing shows
errors, and a text that is no filter counts as the standard one.

No line of the tester is written within a span, and none carries another field than its message.
So a directive with a span, or with a value of a field, shows nothing.
-/

namespace LoadProbe

/-- The part of the program that a notice comes from. -/
def Notice.source : Notice → String
  | .runCanceled _ | .runFailed _ | .runOverdue _ _ | .runNormal _ | .surplusResult _
  | .verdictDropped => "stress_tester::service::collector"
  | .passEmpty _ | .passStarted _ | .passWithoutVerdict _ | .passFinished _ | .passGrew _ _ _
  | .passShrank _ _ _ => "stress_tester::service::controller"
  | .noTrials | .trialFailed _ _ _ | .trialTook _ _ _ => "stress_tester::service::speed"
  | .scenarioStarted _ | .baselineStarted | .baselineFailed _ | .baselineTook _
  | .scenarioFinished _ _ => "stress_tester::service::scenario_runner"
  | .runStarted _ | .runRefused _ | .submissionFailed _ | .runInterrupted _ _ | .pullFailed _ _
  | .finalPullFailed _ | .runOverDeadline _ | .stopFailed _ _ => "stress_tester::scheduler::player"
  | .scenarioSkipped _ _ _ => "stress_tester::config"
  | .commandSent _ => "stress_client"
  | .pullRejected _ => "stress_client::feeds"
  | .sessionStarted | .planLoaded _ _ | .scenariosListed _ | .cleaningStarted | .cleaned
  | .cleaningTimedOut _ | .scenariosFinished | .reported _ _ _ => "stress_tester"

namespace Log

/-- The least detail that shows lines of a level. -/
def Detail.ofLevel : Level → Detail
  | .debug => debug
  | .info => info
  | .warn => warn
  | .error => error

/-- The field that every line carries. -/
def messageField : String := "message"

namespace Directive

/-- A directive is about the lines of a part of the program. -/
def concerns (d : Directive) (source : String) : Bool :=
  d.isStatic && d.target.toList.isPrefixOf source.toList &&
    d.field?.all fun f => f.name == messageField

/-- How much a directive says about a line: first the length of its target, then its fields. -/
def precision (d : Directive) : Nat × Nat :=
  (d.target.utf8ByteSize, d.field?.toList.length)

/-- One directive says no less about a line than another. -/
def outranks (d e : Directive) : Bool :=
  e.precision.1 < d.precision.1 || (e.precision.1 = d.precision.1 && e.precision.2 ≤ d.precision.2)

end Directive

abbrev Filter := List Directive

namespace Filter

/-- The filter that a text stands for: directives between commas. -/
def read (text : String) : Except Refusal Filter := do
  let entries := (text.toList.splitOn ',').filter fun cs => !cs.isEmpty
  let directives ← entries.mapM Directive.read
  return if directives.isEmpty then [⟨"", none, none, .error⟩] else directives

/-- The filter that applies when no other is given. -/
def standard : Filter :=
  [⟨"stress_executor", none, none, .info⟩, ⟨"stress_client", none, none, .info⟩]

/-- The filter that the environment asks for. There is none for a text with a torn directive, on
which the tester dies. -/
def ofEnvironment : Option String → Option Filter
  | none => some standard
  | some text =>
    match read text with
    | .ok f => some f
    | .error .malformed => some standard
    | .error .torn => none

/-- The directive that decides about the lines of a part of the program: of those about them the
one that says the most, and of several equal ones the last. -/
def deciding? (f : Filter) (source : String) : Option Directive :=
  (f.filter fun d => d.concerns source).foldl (fun best? d =>
    match best? with
    | some best => if d.outranks best then some d else some best
    | none => some d) none

/-- A notice is shown. -/
def shows (f : Filter) (n : Notice) : Bool :=
  match f.deciding? n.source with
  | some d => decide ((Detail.ofLevel n.level).rank ≤ d.detail.rank)
  | none => false

end Filter

end Log

end LoadProbe
