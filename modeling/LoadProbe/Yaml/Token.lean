import LoadProbe.Number.Literal
import LoadProbe.Yaml.Scalar.Plain
import LoadProbe.Yaml.Scalar.Quoted
import LoadProbe.Yaml.Scalar.Block
import LoadProbe.Yaml.Tag

/-!
# Tokens

The marks, scalars and properties that a YAML text is made of. Those that stand for an indentation
(`blockSequence`, `blockMapping`, `blockEnd`) and the `key` of a simple key are written nowhere in
the text; `LoadProbe.Yaml.Lexer` puts them in. This module reads the tokens that have an inner
form of their own: anchors and references to them, tags with their handles, and directives.
-/

namespace LoadProbe.Yaml

open Number

/-- How a scalar is written. -/
inductive Style where
  | plain
  | quoted
  | literal
  | folded
deriving DecidableEq, Repr

inductive Token where
  /-- A version directive. -/
  | version (major minor : Nat)
  /-- A directive that lets a handle stand for the beginning of tags. -/
  | shorthand (handle : String) (stem : Tag)
  | documentStart
  | documentEnd
  | blockSequence
  | blockMapping
  | blockEnd
  | flowSequence
  | flowSequenceEnd
  | flowMapping
  | flowMappingEnd
  | flowEntry
  | blockEntry
  | key
  | value
  | anchor (name : String)
  | reference (name : String)
  /-- A tag; without a handle it is complete. -/
  | tag (handle : String) (suffix : Tag)
  | scalar (text : String) (style : Style)
deriving DecidableEq, Repr

/-- The name of an anchor or reference after its indicator, and what follows. -/
def anchorName? (spots : List Spot) : Option (String × List Spot) :=
  let name := spots.takeWhile fun s => isWord s.char
  let rest := spots.dropWhile fun s => isWord s.char
  if !name.isEmpty && (atGap rest || atAny "?:,]\x7d%@\x60" rest) then
    some (String.ofList (charsOf name), rest)
  else none

/-- The handle at the start of a row, from its exclamation mark on. It ends with a second mark
where there is one. -/
def tagHandle? : List Spot → Option (String × List Spot)
  | [] => none
  | s :: rest =>
    if s.char != '!' then none
    else
      let name := charsOf (rest.takeWhile fun s => isWord s.char)
      match rest.dropWhile fun s => isWord s.char with
      | [] => some (String.ofList ('!' :: name), [])
      | t :: rest =>
        if t.char = '!' then some (String.ofList ('!' :: name ++ ['!']), rest)
        else some (String.ofList ('!' :: name), t :: rest)

/-- A handle that is closed by a second exclamation mark. -/
def isClosed (handle : String) : Bool :=
  handle != "!" && handle.toList.getLast? == some '!'

/-- The tag at the start of a row, without the check of what ends it. -/
def tagToken? (spots : List Spot) : Option (Token × List Spot) :=
  if atAny "<" (spots.drop 1) then do
    let (bytes, rest) ← Tag.bytes? Tag.listMarks 0 (spots.drop 2)
    if bytes.isEmpty then none
    else if atAny ">" rest then return (.tag "" (.ofBytes bytes), rest.drop 1) else none
  else do
    let (handle, rest) ← tagHandle? spots
    if isClosed handle then
      let (bytes, rest) ← Tag.bytes? "" 0 rest
      if bytes.isEmpty then none else return (.tag handle (.ofBytes bytes), rest)
    else
      let (bytes, rest) ← Tag.bytes? "" 0 rest
      let suffix := Tag.ofBytes ((handle.toList.drop 1).flatMap String.utf8EncodeChar ++ bytes)
      return (if suffix.bytes.isEmpty then .tag "" (.ofText "!") else .tag "!" suffix, rest)

/-- The tag at the start of a row, and what follows; a gap ends it, inside brackets also a
comma. -/
def tag? (flow : Bool) (spots : List Spot) : Option (Token × List Spot) := do
  let (token, rest) ← tagToken? spots
  if atGap rest || (flow && atAny "," rest) then return (token, rest) else none

/-- A row without the blanks at its start. -/
def skipBlanks (spots : List Spot) : List Spot :=
  spots.dropWhile fun s => isBlank s.char

/-- A number of at most nine digits, and what follows. -/
def versionNumber? (spots : List Spot) : Option (Nat × List Spot) :=
  let digits := spots.takeWhile fun s => s.char.isDigit
  if digits.isEmpty || decide (9 < digits.length) then none
  else some (naturalOf (charsOf digits), spots.dropWhile fun s => s.char.isDigit)

/-- The directive after its percent sign, and what follows its line. -/
def directive? (spots : List Spot) : Option (Token × List Spot) := do
  let name := charsOf (spots.takeWhile fun s => isWord s.char)
  let rest := spots.dropWhile fun s => isWord s.char
  if !atGap rest then none
  else if name = "YAML".toList then
    let (major, rest) ← versionNumber? (skipBlanks rest)
    if !atAny "." rest then none
    else
      let (minor, rest) ← versionNumber? (rest.drop 1)
      return (.version major minor, ← endLine? rest)
  else if name = "TAG".toList then
    let (handle, rest) ← tagHandle? (skipBlanks rest)
    let blank := rest.head?.any fun s => isBlank s.char
    if !blank || !(handle = "!" || isClosed handle) then none
    else
      let (bytes, rest) ← Tag.bytes? Tag.listMarks 0 (skipBlanks rest)
      if bytes.isEmpty || !atGap rest then none
      else return (.shorthand handle (.ofBytes bytes), ← endLine? rest)
  else none

end LoadProbe.Yaml
