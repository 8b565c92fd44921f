import LoadProbe.Number.Exact

/-!
# The fewest digits that read back

A positive double has a finite decimal expansion: `units` of `10 ^ exponent`. The distance to the
next double, `gap`, is an integer in the same units, so which decimals round to the double
(`Expansion.near`) is a comparison of naturals. `Expansion.shortest` cuts the expansion after one
digit, two digits, and so on, and takes the first cut that has a neighbour which reads back; of
two such neighbours it takes the nearer, and a tie goes as the format says.
-/

namespace LoadProbe.Number

/-- The decimal `digits * 10 ^ exponent`. -/
structure Decimal where
  digits : Nat
  exponent : Int
deriving DecidableEq, Repr

/-- Which of two equally near decimals is taken. -/
inductive Tie where
  /-- The one with the even last digit. -/
  | toEven
  /-- The one of greater size. -/
  | away
deriving DecidableEq, Repr

/-- A positive double as a decimal, `units * 10 ^ exponent`, with the distance to its upper
neighbour in the same units. -/
structure Expansion where
  units : Nat
  exponent : Int
  gap : Nat
  /-- The mantissa is even: a decimal half way to a neighbour rounds to this double. -/
  even : Bool
  /-- The neighbour below is half as far away as the one above. -/
  narrow : Bool
deriving DecidableEq, Repr

namespace Expansion

/-- The expansion of the double `m * 2 ^ e`. -/
def ofBinary (m : Nat) (e : Int) : Expansion :=
  let unit := if 0 ≤ e then Nat.pow 2 e.toNat else Nat.pow 5 (-e).toNat
  { units := m * unit
    exponent := min e 0
    gap := unit
    even := m % 2 == 0
    narrow := m == Nat.pow 2 52 && decide (-1074 < e) }

/-- The decimal of `c` units lies among the reals that round to the double. -/
def near (x : Expansion) (c : Nat) : Bool :=
  let scaled := if x.units ≤ c then 2 * (c - x.units)
    else (if x.narrow then 4 else 2) * (x.units - c)
  if x.even then decide (scaled ≤ x.gap) else decide (scaled < x.gap)

/-- How many units the cut at `10 ^ j` takes, as a multiple of `10 ^ j`: the neighbour below, the
one above, or none when neither reads back. -/
def cut (x : Expansion) (tie : Tie) (j : Nat) : Option Nat :=
  let step := Nat.pow 10 j
  let a := x.units / step
  let below := x.near (a * step)
  let above := x.near ((a + 1) * step)
  if below && above then
    let down := x.units - a * step
    let up := (a + 1) * step - x.units
    if down < up then some a
    else if up < down then some (a + 1)
    else match tie with
      | .toEven => some (if a % 2 == 0 then a else a + 1)
      | .away => some (a + 1)
  else if below then some a
  else if above then some (a + 1)
  else none

/-- The first of the cuts at `10 ^ j`, `10 ^ (j - 1)`, … that reads back; the whole expansion
reads back, so the last one never fails. -/
def firstCut (x : Expansion) (tie : Tie) : Nat → Decimal
  | 0 => ⟨x.units, x.exponent⟩
  | j + 1 =>
    match x.cut tie (j + 1) with
    | some a => ⟨a, x.exponent + (j + 1 : Nat)⟩
    | none => x.firstCut tie j

end Expansion

/-- Moves trailing zeros of the digits into the exponent, at most `fuel` of them. -/
def Decimal.trim (d : Decimal) : Nat → Decimal
  | 0 => d
  | fuel + 1 =>
    if d.digits ≠ 0 ∧ d.digits % 10 = 0 then
      Decimal.trim ⟨d.digits / 10, d.exponent + 1⟩ fuel
    else d

/-- The decimal of the fewest digits that rounds to the double of expansion `x`. -/
def Expansion.shortest (x : Expansion) (tie : Tie) : Decimal :=
  let length := (Nat.repr x.units).length
  (x.firstCut tie length).trim length

end LoadProbe.Number
