/-!
# Patterns of field values

A directive of a log filter may ask for a value of a field: a number, or a regular expression that
the value matches. No event of the tester carries a value to compare with, so what matters is only
whether the text is a number or a well-formed expression: its groups and classes are closed, what
is to be repeated stands before the mark of repetition, and its escapes have a meaning.
-/

namespace LoadProbe.Log

/-- Where the next character of an expression stands. -/
inductive PatternPlace where
  /-- Nothing stands before it that could be repeated. -/
  | start
  /-- Behind something that can be repeated. -/
  | behind
  /-- At the beginning of a class of characters, maybe behind its negation. -/
  | classStart (negated : Bool)
  | inClass
deriving DecidableEq, Repr

namespace PatternPlace

/-- The place behind a character that stands for itself. -/
def next : PatternPlace → PatternPlace
  | start => behind
  | behind => behind
  | classStart _ => inClass
  | inClass => inClass

/-- The place is in no class. -/
def isOutside (p : PatternPlace) : Bool :=
  p = start || p = behind

end PatternPlace

/-- A backslash gives this character a meaning of its own: an ASCII mark stands for itself, and
some letters for a control character, a class or an end of the text. -/
def isEscapable (c : Char) : Bool :=
  if c.isAlphanum then "afnrtvdDsSwWAz".toList.contains c
  else 0x21 ≤ c.toNat && c.toNat ≤ 0x7e

/-- The rest of an expression is well formed; `depth` groups are open. -/
def closesPattern : (depth : Nat) → (place : PatternPlace) → List Char → Bool
  | depth, place, [] => depth = 0 && place.isOutside
  | depth, place, '\\' :: c :: cs => isEscapable c && closesPattern depth place.next cs
  | depth, .classStart negated, c :: cs =>
    if c = '^' && !negated then closesPattern depth (.classStart true) cs
    else closesPattern depth .inClass cs
  | depth, .inClass, c :: cs =>
    closesPattern depth (if c = ']' then .behind else .inClass) cs
  | depth, .start, '(' :: '?' :: ':' :: cs => closesPattern (depth + 1) .start cs
  | depth, .behind, '(' :: '?' :: ':' :: cs => closesPattern (depth + 1) .start cs
  | depth, place, c :: cs =>
    if c = '(' then closesPattern (depth + 1) .start cs
    else if c = ')' then depth != 0 && closesPattern (depth - 1) .behind cs
    else if c = '[' then closesPattern depth (.classStart false) cs
    else if c = '|' then closesPattern depth .start cs
    else if c = '*' || c = '+' || c = '?' then place = .behind && closesPattern depth .behind cs
    else if c = '\x7b' || c = '\\' then false
    else closesPattern depth .behind cs

/-- A number with a plus sign. Every other number is an expression, too. -/
def isPlusNumber : List Char → Bool
  | '+' :: cs =>
    let fraction := (cs.dropWhile Char.isDigit).drop 1
    cs.any Char.isDigit && fraction.all Char.isDigit &&
      ((cs.dropWhile Char.isDigit).head?.all (· = '.'))
  | _ => false

/-- A text that a directive may ask for as a value. -/
def isPattern (cs : List Char) : Bool :=
  closesPattern 0 .start cs || isPlusNumber cs

end LoadProbe.Log
