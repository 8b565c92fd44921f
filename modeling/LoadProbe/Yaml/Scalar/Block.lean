import LoadProbe.Number.Literal
import LoadProbe.Yaml.Spot

/-!
# Block scalars

A literal or folded scalar stands on the lines below its indicator, further in than what it
belongs to. How far in is written at the indicator or taken from its first line. A literal scalar
keeps its line breaks; a folded one turns a single break between two lines that start with no
blank into a space. The breaks at its end are cut to one, to none, or kept, as the indicator says.
-/

namespace LoadProbe.Yaml

open Number

/-- What happens to the line breaks at the end of a block scalar. -/
inductive Chomping where
  /-- All of them go. -/
  | strip
  /-- One stays. -/
  | clip
  /-- All of them stay. -/
  | keep
deriving DecidableEq, Repr

/-- What the indicator of a block scalar says besides its kind. -/
structure BlockHeader where
  chomping : Chomping
  /-- How much further in the scalar is, 0 where its first line shows it. -/
  further : Nat

/-- The chomping that a character asks for. -/
def Chomping.ofChar? (c : Char) : Option Chomping :=
  if c = '+' then some .keep else if c = '-' then some .strip else none

/-- The rest of an indicator after `|` or `>`, and what follows the line it stands on. A digit 0 is
refused. -/
def BlockHeader.read? (spots : List Spot) : Option (BlockHeader × List Spot) := do
  let digit? (spots : List Spot) : Option (Nat × List Spot) :=
    match spots with
    | s :: rest =>
      if !s.char.isDigit then some (0, spots)
      else if s.char = '0' then none
      else some (digitValue s.char, rest)
    | [] => some (0, [])
  let sign (spots : List Spot) : Option (Chomping × List Spot) :=
    match spots with
    | s :: rest => (Chomping.ofChar? s.char).map fun x => (x, rest)
    | [] => none
  match sign spots with
  | some (x, spots) =>
    let (n, spots) ← digit? spots
    return (⟨x, n⟩, ← endLine? spots)
  | none =>
    let (n, spots) ← digit? spots
    match sign spots with
    | some (x, spots) => return (⟨x, n⟩, ← endLine? spots)
    | none => return (⟨.clip, n⟩, ← endLine? spots)

/-- Skips empty lines and the indentation of the next line, `indent` columns of it or, where that
is 0, all of it. The result is the line breaks, the greatest column that the skipped blanks
reach, and the rest. A tab that stands in the indentation is refused. -/
def skipIndentation? (indent : Nat) : List Spot → Option (List Char × Nat × List Spot)
  | [] => some ([], 0, [])
  | s :: rest =>
    let within := indent = 0 || decide (s.column < indent)
    if within && s.char = ' ' then skipIndentation? indent rest
    else if within && s.char = '\t' then none
    else if isBreak s.char then do
      let (breaks, column, rest) ← skipIndentation? indent rest
      return (s.char :: breaks, max s.column column, rest)
    else some ([], s.column, s :: rest)

/-- What stands between the lines of a block scalar: the break that ends the line before, the
breaks of the empty lines, and whether the line before starts with a blank. -/
structure BlockGap where
  ending : List Char
  empty : List Char
  afterBlank : Bool

/-- What a gap comes to before a line; `blank` says that the line starts with one. -/
def BlockGap.text (literal : Bool) (blank : Bool) (gap : BlockGap) : List Char :=
  if !literal && gap.ending = ['\n'] && !gap.afterBlank && !blank then
    if gap.empty.isEmpty then [' '] else gap.empty
  else gap.ending ++ gap.empty

/-- The lines of a block scalar that start at column `indent`, what is left of line breaks behind
the last of them, and what follows. -/
def blockLines? (literal : Bool) (indent : Nat) (gap : BlockGap) (spots : List Spot) :
    Option (List Char × BlockGap × List Spot) :=
  match spots with
  | [] => some ([], gap, [])
  | s :: rest =>
    if s.column != indent then some ([], gap, s :: rest)
    else
      let blank := isBlank s.char
      let line := (s :: rest).takeWhile fun t => !isBreak t.char
      let behind := (s :: rest).dropWhile fun t => !isBreak t.char
      match skipIndentation? indent (behind.drop 1) with
      | none => none
      | some (breaks, _, next) =>
        -- every line of the scalar holds a character
        if _h : next.length ≤ rest.length then
          (blockLines? literal indent ⟨charsOf (behind.take 1), breaks, blank⟩ next).map
            fun (text, last, rest) => (gap.text literal blank ++ charsOf line ++ text, last, rest)
        else none
termination_by spots.length

/-- A block scalar after its `|` or `>`, and what follows. `parent` is the column of the
collection that it stands in, -1 outside of all. -/
def block? (literal : Bool) (parent : Int) (spots : List Spot) :
    Option (List Char × List Spot) := do
  let (header, spots) ← BlockHeader.read? spots
  let given := if header.further = 0 then 0 else (max parent 0).toNat + header.further
  let (breaks, deepest, spots) ← skipIndentation? given spots
  let indent := if given = 0 then max deepest (max (parent + 1).toNat 1) else given
  let (text, last, rest) ← blockLines? literal indent ⟨[], breaks, false⟩ spots
  let text := if header.chomping = .strip then text else text ++ last.ending
  return (if header.chomping = .keep then text ++ last.empty else text, rest)

end LoadProbe.Yaml
