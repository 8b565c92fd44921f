/-!
# Reading decimals

A decimal literal is a row of digits, a row of digits behind the point and an exponent; its value
is the double nearest to it. The exponent of a literal can be any integer, so literals far outside
the range of doubles are decided by their size before any power of ten is formed.
-/

namespace LoadProbe.Number

/-- The value of a decimal digit. -/
def digitValue (c : Char) : Nat :=
  c.toNat - '0'.toNat

/-- The value of a hexadecimal digit of either case. -/
def hexValue? (c : Char) : Option Nat :=
  if '0' ≤ c ∧ c ≤ '9' then some (c.toNat - '0'.toNat)
  else if 'a' ≤ c ∧ c ≤ 'f' then some (c.toNat - 'a'.toNat + 10)
  else if 'A' ≤ c ∧ c ≤ 'F' then some (c.toNat - 'A'.toNat + 10)
  else none

/-- The natural number that a row of decimal digits stands for. -/
def naturalOf (digits : List Char) : Nat :=
  digits.foldl (fun n c => 10 * n + digitValue c) 0

/-- A written decimal: digits before the point, digits behind it, and a power of ten. -/
structure Literal where
  negative : Bool
  whole : List Char
  fraction : List Char
  exponent : Int

/-- The double nearest to `digits * 10 ^ exponent`. -/
def nearest (digits : Nat) (exponent : Int) : Float :=
  let size := ((Nat.repr digits).length : Int) + exponent
  if digits = 0 ∨ size < -330 then 0.0
  else if 330 < size then 1.0 / 0.0
  else Float.ofScientific digits (decide (exponent < 0)) exponent.natAbs

/-- The double nearest to a literal. -/
def Literal.value (l : Literal) : Float :=
  let size := nearest (naturalOf (l.whole ++ l.fraction)) (l.exponent - l.fraction.length)
  if l.negative then -size else size

end LoadProbe.Number
