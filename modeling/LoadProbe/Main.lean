import LoadProbe.Invocation
import LoadProbe.Log.Line
import LoadProbe.Session

/-!
# The program

Reads the command line, the environment and the files that a session needs, and prints what the
session shows. There is no connection to a network here, so the server of a plan is never reached.
-/

open LoadProbe

/-- The text that `--help` prints. -/
def usageText : String :=
  "Adaptive stress tester for the strategy facade\n\n" ++
  "Usage: stress-tester [OPTIONS] --config <CONFIG>\n\n" ++
  "Options:\n" ++
  "  -c, --config <CONFIG>  Path to the YAML config file [env: STRESS_TEST_CONFIG=]\n" ++
  "      --cleanup-timeout-secs <CLEANUP_TIMEOUT_SECS>\n" ++
  "                         Seconds to wait for the server to accept stop-all before giving up " ++
  "[default: 30]\n" ++
  "  -h, --help             Print help\n"

/-- What an error says about a path: nothing exists there, or it cannot be read. -/
def contentOfError : IO.Error → Option Content
  | .noFileOrDirectory .. => none
  | .inappropriateType _ code details =>
    if code = 21 then some .directory else if code = 20 then none else some (.unreadable details)
  | e => some (.unreadable (toString e))

/-- What stands at a path. -/
def look (path : String) : IO (Option Content) := do
  try
    return some (.ofBytes (← IO.FS.readBinFile path))
  catch e => return contentOfError e

/-- The files at some paths. -/
def lookAll (paths : List String) : IO Files := do
  let found ← paths.mapM fun path => return (path, ← look path)
  return fun path => (found.lookup path).getD none

/-- The paths that a session of a plan looks at. -/
def pathsOf (files : Files) (path : String) : List String :=
  match Plan.load files path with
  | .error _ => [path]
  | .ok p => path :: p.entries.flatMap fun e =>
    [e.strategy, Path.within (Path.parent path) e.strategy]

/-- Carries out the plan at a path and shows what a filter lets through. -/
def carryOut (filter : Log.Filter) (path : String) (cleaning : Nat) : IO UInt32 := do
  let files ← lookAll (pathsOf (← lookAll [path]) path)
  let r := Session.run files path cleaning (fun _ => .unreachable) ()
  for n in r.said do
    if filter.shows n then IO.println (Log.fullLine n)
  if let some line := r.ending.errorLine? then IO.eprintln line
  return r.ending.exitCode.toUInt32

def main (arguments : List String) : IO UInt32 := do
  match Log.Filter.ofEnvironment (← IO.getEnv "RUST_LOG") with
  | none =>
    IO.eprintln "a directive of the log filter begins or ends within a character"
    return SessionEnd.crashed.exitCode.toUInt32
  | some filter =>
    match Invocation.read (← IO.getEnv "STRESS_TEST_CONFIG") arguments with
    | .usage =>
      IO.print usageText
      return 0
    | .refused =>
      IO.eprintln "error: invalid arguments, try '--help'"
      return 2
    | .session path cleaning => carryOut filter path cleaning
