import LoadProbe.Number.Literal
import LoadProbe.Yaml.Spot

/-!
# Tags

A tag names the type of a node. Its characters are taken from the text or written as percent
escapes, of which each stands for a byte, so a tag is a row of bytes and not a text. The escapes
must have the outer form of encoded characters, a first byte that says how many bytes follow it
and that many bytes behind it; which character they encode is not looked at (`Tag.bytes?`). A zero
byte ends a tag.
-/

namespace LoadProbe.Yaml

open Number

structure Tag where
  bytes : List UInt8
deriving DecidableEq, Repr

namespace Tag

/-- The tag whose bytes encode a text. -/
def ofText (text : String) : Tag := ⟨text.toList.flatMap String.utf8EncodeChar⟩

/-- The tag that begins a row of bytes: a zero byte ends it. -/
def ofBytes (bytes : List UInt8) : Tag := ⟨bytes.takeWhile (· != 0)⟩

/-- One tag behind another. -/
def append (stem suffix : Tag) : Tag := ⟨stem.bytes ++ suffix.bytes⟩

/-- What the tag says behind an exclamation mark, when this is a text. Such a tag is one of the
document's own. -/
def own? (t : Tag) : Option String :=
  match t.bytes with
  | b :: own => if b = 0x21 then String.fromUTF8? ⟨own.toArray⟩ else none
  | [] => none

/-- How many bytes follow the first one of an encoded character. -/
def followers? (first : UInt8) : Option Nat :=
  if first < 0x80 then some 0
  else if first &&& 0xe0 = 0xc0 then some 1
  else if first &&& 0xf0 = 0xe0 then some 2
  else if first &&& 0xf8 = 0xf0 then some 3
  else none

/-- How many bytes of an encoded character are still to come after a byte, when `pending` were to
come before it. -/
def pendingAfter? (pending : Nat) (b : UInt8) : Option Nat :=
  match pending with
  | 0 => followers? b
  | pending + 1 => if b &&& 0xc0 = 0x80 then some pending else none

/-- The marks that may stand in tags besides digits and letters. -/
def marks : String := "_-;/?:@&=+$.!~*'()"

/-- The further marks that are allowed in a tag between angle brackets, and in directives. -/
def listMarks : String := ",[]"

/-- The byte that two hexadecimal digits stand for. -/
def byte? (a b : Char) : Option UInt8 := do
  return (16 * (← hexValue? a) + (← hexValue? b)).toUInt8

/-- The bytes at the start of a row that can belong to a tag, escapes being read, and what follows.
`extra` are the further marks that are allowed; `pending` bytes of an escaped character are still
to come. -/
def bytes? (extra : String) : (pending : Nat) → List Spot → Option (List UInt8 × List Spot)
  | pending, [] => if pending = 0 then some ([], []) else none
  | pending, s :: rest =>
    if s.char = '%' then
      match rest with
      | a :: b :: rest => do
        let first ← byte? a.char b.char
        let (bytes, rest) ← bytes? extra (← pendingAfter? pending first) rest
        return (first :: bytes, rest)
      | _ => none
    else if pending != 0 then none
    else if s.char.isAlphanum || atAny (marks ++ extra) [s] then do
      let (bytes, rest) ← bytes? extra 0 rest
      return (s.char.toNat.toUInt8 :: bytes, rest)
    else some ([], s :: rest)

end Tag

end LoadProbe.Yaml
