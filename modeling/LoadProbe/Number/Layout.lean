import LoadProbe.Number.Shortest

/-!
# How chosen digits are laid out

`Layout` holds the decisions of one written form of numbers: which exponents are written with the
point in place, whether an integral number keeps a `.0`, how a tie between two shortest decimals
goes, and what stands for values that have no digits. `Layout.render` writes a double by them.
-/

namespace LoadProbe.Number

/-- The decisions of a written form of numbers. -/
structure Layout where
  /-- The exponents of the leading digit that are written with the point in place. -/
  inPlace : Int → Bool
  /-- An integral number in place ends in `.0`. -/
  pointZero : Bool
  tie : Tie
  notANumber : String
  infinity : String
  negativeInfinity : String

namespace Layout

/-- The text `n` times `0`. -/
def zeros (n : Nat) : String :=
  String.ofList (List.replicate n '0')

/-- The digits with the point in place. -/
def placed (l : Layout) (digits : String) (exponent : Int) : String :=
  if 0 ≤ exponent then
    digits ++ zeros exponent.toNat ++ (if l.pointZero then ".0" else "")
  else
    let behind := (-exponent).toNat
    if digits.length ≤ behind then
      "0." ++ zeros (behind - digits.length) ++ digits
    else
      let before := digits.length - behind
      String.ofList (digits.toList.take before) ++ "." ++
        String.ofList (digits.toList.drop before)

/-- One digit, the other digits behind a point, and the signed exponent of the first. -/
def scientific (digits : String) (leading : Int) : String :=
  let tail := String.ofList (digits.toList.drop 1)
  String.ofList (digits.toList.take 1) ++ (if tail.isEmpty then "" else "." ++ tail) ++
    (if leading < 0 then "e-" else "e+") ++ Nat.repr leading.natAbs

/-- A positive decimal in this form. -/
def decimal (l : Layout) (d : Decimal) : String :=
  let digits := Nat.repr d.digits
  let leading := d.exponent + (digits.length : Int) - 1
  if l.inPlace leading then l.placed digits d.exponent else scientific digits leading

/-- A double in this form. -/
def render (l : Layout) (x : Float) : String :=
  match exact x with
  | .notANumber => l.notANumber
  | .infinity .positive => l.infinity
  | .infinity .negative => l.negativeInfinity
  | .zero s => (if s == .negative then "-" else "") ++ (if l.pointZero then "0.0" else "0")
  | .finite s m e _ =>
    (if s == .negative then "-" else "") ++
      l.decimal ((Expansion.ofBinary m e).shortest l.tie)

end Layout

end LoadProbe.Number
