import LoadProbe.Number.Word

/-!
# Doubles as exact numbers

`exact` opens a double into what its bits stand for: an infinity, a signed zero, no number, or a
sign with `mantissa * 2 ^ exponent`. `floorIn` is the greatest integer below a double, clamped to
a range, computed on that exact value, so that it is open to proof where the floor of the
hardware is not.
-/

namespace LoadProbe.Number

open Float.Model (UnpackedFloat)
open Float.Model.UnpackedFloat (Sign)

/-- The exact value that a double stands for. -/
def exact (x : Float) : UnpackedFloat :=
  .unpack .binary64 x.toBits.toBitVec

/-- The exact value is the one that the arithmetic of doubles works on. -/
theorem exact_eq_unpack (x : Float) : exact x = x.toModel.unpack :=
  rfl

/-- The integer `m` with a sign. -/
def signed (s : Sign) (m : Nat) : Int :=
  match s with
  | .positive => m
  | .negative => -m

/-- The greatest integer that is at most `signed s m * 2 ^ e`. -/
def floorScaled (s : Sign) (m : Nat) (e : Int) : Int :=
  if 0 ≤ e then signed s m * Nat.pow 2 e.toNat else signed s m / Nat.pow 2 (-e).toNat

/-- The floor of an exact value, clamped to `r`; what is no number counts as 0. -/
def floorExact (r : Range) : UnpackedFloat → Int
  | .notANumber => 0
  | .zero _ => 0
  | .infinity .positive => r.hi
  | .infinity .negative => r.lo
  | .finite s m e _ => r.clamp (floorScaled s m e)

/-- The floor of a double, clamped to `r`. -/
def floorIn (r : Range) (x : Float) : Int :=
  floorExact r (exact x)

/-- A double, unless it is infinite. -/
def finite? (x : Float) : Option Float :=
  match exact x with
  | .infinity _ => none
  | _ => some x

/-- A double with the negative sign, zeros included. -/
def isNegative (x : Float) : Bool :=
  match exact x with
  | .notANumber => false
  | .infinity s => s == .negative
  | .zero s => s == .negative
  | .finite s _ _ _ => s == .negative

end LoadProbe.Number
