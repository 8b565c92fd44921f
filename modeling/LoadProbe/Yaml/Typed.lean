import LoadProbe.Number.Word
import LoadProbe.Number.Exact
import LoadProbe.Yaml.Node

/-!
# Nodes as typed values

A reader that knows what a node should be takes it from the text of the node. Any scalar is a text,
as it stands. Numbers and truth values are read from plain scalars, and from literal ones that
carry the tag of their type. A sequence is a list, a mapping a record; an empty plain scalar counts
as either, without items. In a record, keys that are not asked for are ignored together with their
values, and a key that is asked for may stand only once.

A reference is followed wherever a value is asked for. A document that refers to its own parts
again and again could stand for very much with little text, so the references that are followed
are counted (`Typed`), and there may only be so many of them (`Document.patience`).
-/

namespace LoadProbe.Yaml

open Number

/-- The tag of a type that every reader knows. -/
def coreTag (type : String) : Tag := .ofText ("tag:yaml.org,2002:" ++ type)

/-- The words for true and false. -/
def flagOf? (text : String) : Option Bool :=
  if ["true", "True", "TRUE"].contains text then some true
  else if ["false", "False", "FALSE"].contains text then some false
  else none

/-- What follows `mark` in a row that begins with it. -/
def after? (mark : String) (cs : List Char) : Option (List Char) :=
  if mark.toList.isPrefixOf cs then some (cs.drop mark.length) else none

/-- The number that a row of digits to a base stands for; there is one digit at least. -/
def digitsIn? (base : Nat) (cs : List Char) : Option Nat :=
  if cs.isEmpty then none
  else cs.foldlM (fun n c => (hexValue? c).bind fun d =>
    if d < base then some (base * n + d) else none) 0

/-- The natural number that a row of characters stands for: decimal without leading zeros, or to
the base 16, 8 or 2. -/
def naturalIn? (cs : List Char) : Option Nat :=
  match after? "0x" cs, after? "0o" cs, after? "0b" cs with
  | some digits, _, _ => digitsIn? 16 digits
  | _, some digits, _ => digitsIn? 8 digits
  | _, _, some digits => digitsIn? 2 digits
  | _, _, _ => if cs.head? = some '0' && decide (1 < cs.length) then none else digitsIn? 10 cs

/-- The integer of a range that a text stands for. Only a range with negative members allows the
minus sign. -/
def integerOf? (r : Range) (text : String) : Option Int := do
  let n ← match text.toList with
    | '+' :: cs => (naturalIn? cs).map Int.ofNat
    | '-' :: cs => if r.lo < 0 then (naturalIn? cs).map fun n => -Int.ofNat n else none
    | cs => (naturalIn? cs).map Int.ofNat
  if r.contains n then return n else none

/-- The decimal that a row of characters stands for: digits with a point among, before or behind
them, and an exponent. -/
def decimal? (negative : Bool) (cs : List Char) : Option Literal := do
  let whole := cs.takeWhile Char.isDigit
  let rest := cs.dropWhile Char.isDigit
  let (fraction, rest) := match rest with
    | '.' :: rest => (rest.takeWhile Char.isDigit, rest.dropWhile Char.isDigit)
    | _ => ([], rest)
  if whole.isEmpty && fraction.isEmpty then none
  else
    match rest with
    | [] => return ⟨negative, whole, fraction, 0⟩
    | e :: rest =>
      if e != 'e' && e != 'E' then none
      else
        let (down, digits) := match rest with
          | '-' :: digits => (true, digits)
          | '+' :: digits => (false, digits)
          | digits => (false, digits)
        if digits.isEmpty || !digits.all Char.isDigit then none
        else
          let n : Int := naturalOf digits
          return ⟨negative, whole, fraction, if down then -n else n⟩

/-- The double that a text stands for: a decimal within the range of doubles, an infinity, or no
number. -/
def realOf? (text : String) : Option Float :=
  let infinities := [".inf", ".Inf", ".INF"]
  if infinities.contains text || (infinities.map ("+" ++ ·)).contains text then some (1.0 / 0.0)
  else if (infinities.map ("-" ++ ·)).contains text then some (-1.0 / 0.0)
  else if [".nan", ".NaN", ".NAN"].contains text then some (0.0 / 0.0)
  else do
    let decimal ← match text.toList with
      | '+' :: cs => decimal? false cs
      | '-' :: cs => decimal? true cs
      | cs => decimal? false cs
    finite? decimal.value

/-- A reading of a typed value, which may fail. It keeps how many references may still be
followed. -/
abbrev Typed := StateT Nat Option

namespace Document

variable (d : Document)

/-- How many references may be followed while a document is read. -/
def patience : Nat := 100 * d.root.weight

/-- The node that a node stands for. -/
def resolve : Node → Typed Node
  | .reference number => do
    match ← get with
    | 0 => failure
    | left + 1 =>
      set left
      return d.referent number
  | n => return n

/-- The text of a scalar. -/
def text? (n : Node) : Typed String := do
  match ← d.resolve n with
  | .scalar text _ _ => return text
  | _ => failure

/-- The text of a scalar that may be a value of a type. -/
def typed? (type : String) (n : Node) : Typed String := do
  match ← d.resolve n with
  | .scalar text .plain _ => return text
  | .scalar text .literal (some tag) => if tag = coreTag type then return text else failure
  | _ => failure

/-- The truth value that a node stands for. -/
def flag? (n : Node) : Typed Bool := do flagOf? (← d.typed? "bool" n)

/-- The integer of a range that a node stands for. -/
def integer? (r : Range) (n : Node) : Typed Int := do integerOf? r (← d.typed? "int" n)

/-- The double that a node stands for. -/
def real? (n : Node) : Typed Float := do realOf? (← d.typed? "float" n)

/-- A plain scalar of this text says that there is no value. -/
def isNull (text : String) : Bool :=
  text.isEmpty || ["null", "Null", "NULL", "~"].contains text

/-- One of some words: the text of a scalar, or a tag of the document's own on no value. -/
def word? (words : List String) (n : Node) : Typed String := do
  match ← d.resolve n with
  | .scalar text style tag =>
    match tag.bind Tag.own? with
    | some own =>
      if words.contains own && style = .plain && isNull text then return own else failure
    | none => if words.contains text then return text else failure
  | _ => failure

/-- Nothing is written. -/
def isBlankNode : Node → Bool
  | .scalar text .plain _ => text.isEmpty
  | _ => false

/-- The items of a list. -/
def items? (n : Node) : Typed (List Node) := do
  match ← d.resolve n with
  | .sequence items => return items
  | n => if isBlankNode n then return [] else failure

/-- The fields of a record, each once. -/
def fields? (names : List String) : List (Node × Node) → Typed (List (String × Node))
  | [] => return []
  | (k, v) :: entries => do
    let key ← d.text? k
    let fields ← fields? names entries
    if !names.contains key then return fields
    else if (fields.lookup key).isSome then failure
    else return (key, v) :: fields

/-- The fields of a record among the given names. -/
def record? (names : List String) (n : Node) : Typed (List (String × Node)) := do
  match ← d.resolve n with
  | .mapping entries => d.fields? names entries
  | n => if isBlankNode n then return [] else failure

end Document

/-- The value of a field that must be there. -/
def field? {α : Type} (fields : List (String × Node)) (name : String) (read : Node → Typed α) :
    Typed α :=
  match fields.lookup name with
  | some n => read n
  | none => failure

/-- The value of a field, or a default where the field is missing. -/
def fieldOr? {α : Type} (fields : List (String × Node)) (name : String) (default : α)
    (read : Node → Typed α) : Typed α :=
  match fields.lookup name with
  | some n => read n
  | none => return default

end LoadProbe.Yaml
