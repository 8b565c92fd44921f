import LoadProbe.Number.Literal
import LoadProbe.Number.Word

/-!
# Invocations

The command line of the tester: `-c` or `--config` names the file of the plan,
`--cleanup-timeout-secs` says how long to wait for the server to be cleaned, and `-h` or `--help`
asks for the usage. The arguments are read from left to right, and the first that is wrong, or that
asks for the usage, decides. Without an argument for it, the path of the plan comes from the
environment.
-/

namespace LoadProbe

open Number

/-- What the tester is asked to do. -/
inductive Invocation where
  | usage
  /-- Carry out the plan at a path, waiting so many seconds at most for the cleaning. -/
  | session (plan : String) (cleaning : Nat)
  /-- The arguments are wrong. -/
  | refused
deriving DecidableEq, Repr

namespace Invocation

/-- How many seconds to wait for the cleaning when nothing else is said. -/
def standardCleaning : Nat := 30

/-- The options that take a value. -/
inductive Setting where
  | plan
  | cleaning
deriving DecidableEq, Repr

/-- The settings that have been given. -/
structure Given where
  plan : Option String
  cleaning : Option Nat

/-- A number of seconds: digits with an optional plus sign, within a word of 64 bits. -/
def seconds? (text : String) : Option Nat :=
  let digits := match text.toList with
    | '+' :: digits => digits
    | digits => digits
  let n := naturalOf digits
  if digits.isEmpty || !digits.all Char.isDigit || !unsigned64.contains n then none else some n

/-- The settings with one more, unless it was given before or its value is wrong. -/
def Given.set? (g : Given) (s : Setting) (value : String) : Option Given :=
  match s with
  | .plan =>
    if g.plan.isSome || value.isEmpty then none else some { g with plan := some value }
  | .cleaning =>
    if g.cleaning.isSome then none
    else (seconds? value).map fun n => { g with cleaning := some n }

/-- An argument that can be the value of the option before it: it does not look like an option. -/
def isValue (text : String) : Bool :=
  text = "-" || text.toList.head? != some '-'

/-- What an argument stands for. -/
inductive Argument where
  | usage
  /-- An option, with its value where it is part of the argument. -/
  | option (s : Setting) (value : Option String)
  /-- From here on there are no options. -/
  | last
  | wrong
deriving DecidableEq, Repr

/-- An option that is written out, after its two hyphens. -/
def Argument.ofLong (cs : List Char) : Argument :=
  let name := String.ofList (cs.takeWhile (· != '='))
  let value := match cs.dropWhile (· != '=') with
    | _ :: value => some (String.ofList value)
    | [] => none
  if cs.isEmpty then .last
  else if name = "help" then if value.isNone then .usage else .wrong
  else if name = "config" then .option .plan value
  else if name = "cleanup-timeout-secs" then .option .cleaning value
  else .wrong

/-- An option of one letter, after its hyphen. Its value may follow with or without an equals
sign. -/
def Argument.ofShort : List Char → Argument
  | 'h' :: _ => .usage
  | ['c'] => .option .plan none
  | 'c' :: '=' :: value => .option .plan (some (String.ofList value))
  | 'c' :: value => .option .plan (some (String.ofList value))
  | _ => .wrong

/-- There are no arguments that are not options. -/
def Argument.ofText (text : String) : Argument :=
  match text.toList with
  | '-' :: '-' :: cs => .ofLong cs
  | '-' :: c :: cs => .ofShort (c :: cs)
  | _ => .wrong

/-- The invocation after all arguments. `fallback` is the path of the plan in the environment. -/
def ofGiven (fallback : Option String) (g : Given) : Invocation :=
  match g.plan <|> fallback with
  | none => .refused
  | some plan => if plan.isEmpty then .refused else .session plan (g.cleaning.getD standardCleaning)

/-- Reads the arguments that are left. -/
def readFrom (fallback : Option String) (g : Given) : List String → Invocation
  | [] => ofGiven fallback g
  | text :: rest =>
    match Argument.ofText text with
    | .wrong => .refused
    | .usage => .usage
    | .last => if rest.isEmpty then ofGiven fallback g else .refused
    | .option s (some value) =>
      match g.set? s value with
      | some g => readFrom fallback g rest
      | none => .refused
    | .option s none =>
      match rest with
      | value :: rest =>
        if isValue value then
          match g.set? s value with
          | some g => readFrom fallback g rest
          | none => .refused
        else .refused
      | [] => .refused

/-- What arguments ask for. -/
def read (fallback : Option String) (arguments : List String) : Invocation :=
  readFrom fallback ⟨none, none⟩ arguments

end Invocation

end LoadProbe
