import LoadProbe.Number.Exact
import LoadProbe.Number.Literal

/-!
# Decimals by one word

A reading of decimals that needs no more than a word and two roundings. The digits of a literal are
gathered in a word of 64 bits as long as they fit, which leaves the word and a power of ten
(`Scaled`). The double nearest to the word is then multiplied or divided by that power. The result
is rounded twice, so it need not be the double nearest to the literal: `4503599627370495.5` reads
as `4503599627370495`.
-/

namespace LoadProbe.Number

/-- A word of 64 bits and a power of ten. -/
structure Scaled where
  word : Nat
  exponent : Int
deriving DecidableEq, Repr

namespace Scaled

/-- A word with one more digit, if it still fits. -/
def extended? (word : Nat) (digit : Char) : Option Nat :=
  let longer := 10 * word + digitValue digit
  if unsigned64.contains longer then some longer else none

/-- A word with more digits before the point. From the first one that does not fit on they only
count. -/
def ofWhole (word : Nat) : List Char → Scaled
  | [] => ⟨word, 0⟩
  | digit :: digits =>
    match extended? word digit with
    | some longer => ofWhole longer digits
    | none => ⟨word, digits.length + 1⟩

/-- What the digits behind the point add. From the first one that does not fit on they are left
out. -/
def withFraction (s : Scaled) : List Char → Scaled
  | [] => s
  | digit :: digits =>
    match extended? s.word digit with
    | some longer => withFraction ⟨longer, s.exponent - 1⟩ digits
    | none => s

/-- The word and the power of ten of a literal, without its sign. -/
def ofLiteral (l : Literal) : Scaled :=
  let s := (ofWhole 0 l.whole).withFraction l.fraction
  { s with exponent := s.exponent + l.exponent }

/-- The greatest power of ten that is a double. -/
def maxPower : Nat := 308

/-- The double nearest to a power of ten. -/
def powerOfTen (n : Nat) : Float := Float.ofScientific 1 false n

/-- A double divided by a power of ten, in two steps where the power is no double. No double of a
word is left after a third step. -/
def dividedBy (x : Float) (power : Nat) : Float :=
  if power ≤ maxPower then x / powerOfTen power
  else if power ≤ 2 * maxPower then x / powerOfTen maxPower / powerOfTen (power - maxPower)
  else 0.0

/-- The double that a word and a power of ten stand for, unless it is infinite. -/
def value? (s : Scaled) : Option Float :=
  let x := Float.ofNat s.word
  let power := s.exponent.natAbs
  if s.exponent < 0 then some (dividedBy x power)
  else if power ≤ maxPower then finite? (x * powerOfTen power)
  else if s.word = 0 then some 0.0
  else none

end Scaled

/-- The double that a literal stands for by one word, unless it is infinite. -/
def Literal.scaledValue? (l : Literal) : Option Float :=
  (Scaled.ofLiteral l).value?.map fun x => if l.negative then -x else x

end LoadProbe.Number
