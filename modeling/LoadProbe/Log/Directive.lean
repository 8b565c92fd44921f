import LoadProbe.Log.Pattern
import LoadProbe.Number.Literal
import LoadProbe.Text.Alphanumeric
import LoadProbe.Text.Space

/-!
# Directives of a log filter

A directive says which log lines are shown, and in how much detail. Its form is
`target[span{field=value}]=level`, of which most parts may be missing. A directive of a level alone
is about all lines, and one without a level shows all of its lines. With a span it is about what
happens within that span, and with a field about the lines that carry it.

White space around a directive is no part of what is read, but the parts are counted off in bytes
from the true beginning of the text, so white space before a directive shifts them all, and white
space behind it belongs to its last part. A part that would begin or end within a character leaves
the directive torn (`Refusal.torn`).
-/

namespace LoadProbe.Log

/-- How much detail is shown, from nothing at all to everything. -/
inductive Detail where
  | off
  | error
  | warn
  | info
  | debug
  | trace
deriving DecidableEq, Repr

namespace Detail

def rank : Detail → Nat
  | off => 0
  | error => 1
  | warn => 2
  | info => 3
  | debug => 4
  | trace => 5

def name : Detail → String
  | off => "off"
  | error => "error"
  | warn => "warn"
  | info => "info"
  | debug => "debug"
  | trace => "trace"

def all : List Detail := [off, error, warn, info, debug, trace]

/-- The number that digits with an optional plus sign stand for. -/
def number? (cs : List Char) : Option Nat :=
  let digits := match cs with
    | '+' :: digits => digits
    | digits => digits
  if digits.isEmpty || !digits.all Char.isDigit then none else some (Number.naturalOf digits)

/-- The detail that a word in any case or a number asks for. -/
def ofText? (text : String) : Option Detail :=
  match number? text.toList with
  | some n => all.find? fun d => d.rank == n
  | none => all.find? fun d => d.name == text.toLower

end Detail

/-- What a directive asks of the fields of a line. -/
structure FieldDemand where
  name : String
  /-- The value matters, too. -/
  valued : Bool
deriving DecidableEq, Repr

structure Directive where
  /-- The beginning of the paths that the directive is about; empty for all. -/
  target : String
  span? : Option String
  field? : Option FieldDemand
  detail : Detail
deriving DecidableEq, Repr

/-- Why a text is no directive. -/
inductive Refusal where
  | malformed
  /-- A part of it begins or ends within a character. -/
  | torn
deriving DecidableEq, Repr

/-- How many bytes a row of characters has. -/
def bytesOf (cs : List Char) : Nat :=
  (cs.flatMap String.utf8EncodeChar).length

/-- A row of characters without its first bytes. -/
def dropBytes : Nat → List Char → Except Refusal (List Char)
  | 0, cs => .ok cs
  | _ + 1, [] => .ok []
  | n + 1, c :: cs => if n + 1 < c.utf8Size then .error .torn else dropBytes (n + 1 - c.utf8Size) cs

/-- The first bytes of a row of characters. -/
def takeBytes : Nat → List Char → Except Refusal (List Char)
  | 0, _ => .ok []
  | _ + 1, [] => .ok []
  | n + 1, c :: cs =>
    if n + 1 < c.utf8Size then .error .torn
    else (takeBytes (n + 1 - c.utf8Size) cs).map (c :: ·)

/-- The part of a row from a byte on. -/
def partFrom (cs : List Char) (first : Nat) : Except Refusal String := do
  return String.ofList (← dropBytes first cs)

/-- The part of a row from a byte on, so many bytes long. -/
def part (cs : List Char) (first size : Nat) : Except Refusal String := do
  return String.ofList (← takeBytes size (← dropBytes first cs))

namespace Directive

/-- A target may begin with this character. -/
def startsTarget (c : Char) : Bool :=
  c = '-' || c = ':' || c = '_' || Text.isAlphanumeric c

/-- The level that a directive ends with, from a byte on. No level is all detail. -/
def level (text : List Char) (first : Nat) : Except Refusal Detail := do
  let name ← partFrom text first
  if name.isEmpty then return .trace
  else
    match Detail.ofText? name with
    | some d => return d
    | none => throw .malformed

/-- The level behind a span, where `rest` stands from a byte on. -/
def ending (text : List Char) (first : Nat) (rest : List Char) : Except Refusal Detail :=
  match rest with
  | [] => return .trace
  | c :: _ => if c = '=' then level text (first + 1) else throw .malformed

/-- The demand of a field that is written as its name, or as its name and value. -/
def demand (text : String) : Except Refusal FieldDemand :=
  match text.toList.splitOn '=' with
  | [] | [[]] => throw .malformed
  | [name] => return ⟨String.ofList name, false⟩
  | name :: value :: _ =>
    if isPattern value then return ⟨String.ofList name, true⟩ else throw .malformed

/-- The directive with a span behind its target; `rest` stands behind the bracket, from a byte
on. -/
def spanned (text : List Char) (target : String) (first : Nat) (rest : List Char) :
    Except Refusal Directive := do
  let name := rest.takeWhile fun c => c != ']' && c != '\x7b'
  let last := first + bytesOf name
  match rest.drop name.length with
  | [] => throw .malformed
  | c :: rest =>
    let span ← part text first (bytesOf name)
    if c = ']' then return ⟨target, some span, none, ← ending text (last + 1) rest⟩
    else
      let field := rest.takeWhile (· != '\x7d')
      match rest.drop field.length with
      | [] => throw .malformed
      | _ :: rest =>
        let field? := some (← demand (← part text (last + 1) (bytesOf field)))
        let span? := if span.isEmpty then none else some span
        match rest with
        | [] => throw .malformed
        | c :: rest =>
          if c != ']' then throw .malformed
          else return ⟨target, span?, field?, ← ending text (last + bytesOf field + 3) rest⟩

/-- The directive that a text holds. -/
def read (text : List Char) : Except Refusal Directive :=
  match Text.trim text with
  | [] => throw .malformed
  | c :: rest =>
    if c = '[' then spanned text "" 1 rest
    else if !startsTarget c then throw .malformed
    else do
      let target := (c :: rest).takeWhile fun c => c != '=' && c != '['
      let size := bytesOf target
      match (c :: rest).drop target.length with
      | [] =>
        let whole := String.ofList text
        return match Detail.ofText? whole with
          | some d => ⟨"", none, none, d⟩
          | none => ⟨whole, none, none, .trace⟩
      | c :: rest =>
        let target ← part text 0 size
        if c = '=' then return ⟨target, none, none, ← level text (size + 1)⟩
        else spanned text target (size + 1) rest

/-- The directive depends on nothing that happens while the tester runs. -/
def isStatic (d : Directive) : Bool :=
  d.span?.isNone && !d.field?.any FieldDemand.valued

end Directive

end LoadProbe.Log
