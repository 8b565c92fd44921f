import LoadProbe.Number.Literal
import LoadProbe.Proofs.Number.Negation

/-!
# Decimals as doubles

A decimal is read as the double that it rounds to (`exact_nearest`). A literal stands for the
decimal of its digits, its point and its exponent (`Literal.magnitude`), and the doubles are told
apart by what they stand for (`exact_injective`), so a literal reads as a given double as soon as
its decimal rounds to the size of this double (`Literal.value_eq`).
-/

namespace LoadProbe.Number

open Float.Model Float.Model.UnpackedFloat

/-- Doubles are told apart by what they stand for. -/
theorem exact_injective : Function.Injective exact := by
  intro x y h
  have hbits := (unpack_inj_of_valid x.toModel.valid y.toModel.valid).1 h
  exact Float.toBits_inj.1 (UInt64.toBitVec_inj.1 hbits)

/-! ## Powers of ten -/

theorem ten_zpow_pos (k : Int) : (0 : ℚ) < 10 ^ k :=
  zpow_pos (by norm_num) k

/-- The power of ten of a decimal that is written with the sign of its exponent apart. -/
def signedExponent (negative : Bool) (power : Nat) : Int :=
  if negative then -power else power

/-- The powers of ten up to the greatest one of 53 bits are doubles. -/
theorem size_powerOfTen : ∀ e : Fin 23, 0.0 < Float.exactlyRepresentablePowersOfTen[e] ∧
    size (exact Float.exactlyRepresentablePowersOfTen[e]) = 10 ^ (e : Nat) := by
  decide +kernel

theorem shaped_powerOfTen (e : Fin 23) :
    Shaped .positive (10 ^ (e : Nat)) (exact Float.exactlyRepresentablePowersOfTen[e]) := by
  obtain ⟨hpos, hsize⟩ := size_powerOfTen e
  rcases exact_of_pos hpos with hinf | ⟨r, -, hs⟩
  · have hlt : (10 : ℚ) ^ (e : Nat) < beyond := by
      calc (10 : ℚ) ^ (e : Nat) ≤ 10 ^ 22 := pow_le_pow_right₀ (by norm_num) (by omega)
        _ < 2 ^ (74 : Int) := by norm_num
        _ ≤ beyond := two_zpow_le (by decide)
    rw [hinf] at hsize
    exact absurd hsize hlt.ne'
  · rwa [← hsize, hs.size_eq]

/-! ## Rounding a decimal -/

/-- A decimal of few digits and a small power of ten needs one product or quotient of doubles. -/
theorem exact_ofScientific_of_lt {digits power : Nat} (hdigits : digits < 2 ^ 53)
    (hpower : power ≤ 22) (negative : Bool) :
    ∃ r u, Rounds (digits * 10 ^ signedExponent negative power) r ∧ Shaped .positive r u ∧
      exact (Float.ofScientific digits negative power) = stored u := by
  have hword : digits.toUInt64.toFloat = Float.ofNat digits := by
    rw [toFloat_eq, UInt64.toNat_ofNat', Nat.mod_eq_of_lt (by omega)]
  have hleft := shaped_ofNat (rounds_of_lt hdigits) (by omega)
  have hright := shaped_powerOfTen ⟨power, by omega⟩
  rw [Float.ofScientific, dif_pos ⟨hdigits, hpower⟩, hword]
  cases negative with
  | false =>
    obtain ⟨p, hp, hs⟩ := hleft.mul hright
    exact ⟨p, _, by simpa [signedExponent] using hp, hs, exact_mul _ _⟩
  | true =>
    obtain ⟨p, hp, hs⟩ := hleft.div hright (by positivity)
    refine ⟨p, _, ?_, hs, exact_div _ _⟩
    rwa [div_eq_mul_inv, ← zpow_natCast, ← zpow_neg] at hp

/-- Any other decimal is rounded from its digits and its power of ten as naturals, unless its
exponent is out of range. -/
theorem ofScientific_shaped {digits : Nat} (hdigits : 0 < digits) {exponent : Int}
    (hlow : -(2048 + digits.log2) ≤ exponent) (hhigh : exponent ≤ 2048) :
    ∃ r, Rounds (digits * 10 ^ exponent) r ∧
      Shaped .positive r (UnpackedFloat.ofScientific .binary64 digits exponent) := by
  have hrange : (2 : Int) ^ Format.binary64.exponentBits = 2048 := rfl
  rw [UnpackedFloat.ofScientific, dif_neg hdigits.ne', if_neg (by omega), if_neg (by omega)]
  split
  · next hsign =>
    obtain ⟨k, rfl⟩ := Int.eq_ofNat_of_zero_le hsign
    have hval : ((digits <<< 53 * 10 ^ k : Nat) : ℚ) * 2 ^ (-53 + 0 : Int) =
        digits * 10 ^ (k : Int) := by
      rw [Nat.shiftLeft_eq, zpow_natCast]
      push_cast
      norm_num
      ring
    have hbits : 2 ^ 52 ≤ digits <<< 53 * 10 ^ k ∨ (-53 + 0 : Int) ≤ -1074 := by
      left
      calc 2 ^ 52 ≤ digits <<< 53 := by rw [Nat.shiftLeft_eq]; omega
        _ ≤ digits <<< 53 * 10 ^ k := Nat.le_mul_of_pos_right _ (by positivity)
    have hround := roundWithAccuracy_shaped (s := .positive)
      (tells_exact (digits <<< 53 * 10 ^ k) (-53 + 0)) hbits
    rwa [hval] at hround
  · next hsign =>
    obtain ⟨k, hk⟩ := Int.eq_ofNat_of_zero_le (show 0 ≤ -exponent by omega)
    have hval : (digits : ℚ) * 2 ^ (0 : Int) / ((10 ^ k : Nat) * 2 ^ (0 : Int)) =
        digits * 10 ^ exponent := by
      rw [show exponent = -(k : Int) by omega, zpow_neg, zpow_natCast]
      push_cast
      ring
    have hround := div_finite_shaped hdigits (show 0 < 10 ^ k by positivity) 0 0
    rw [hval] at hround
    simp only [hk]
    exact hround

/-- A decimal of which the exponent is not out of range is read as its rounding. -/
theorem exact_ofScientific {digits : Nat} (hdigits : 0 < digits) (negative : Bool) (power : Nat)
    (hlow : -(2048 + digits.log2) ≤ signedExponent negative power)
    (hhigh : signedExponent negative power ≤ 2048) :
    ∃ r u, Rounds (digits * 10 ^ signedExponent negative power) r ∧ Shaped .positive r u ∧
      exact (Float.ofScientific digits negative power) = stored u := by
  by_cases hfew : digits < 2 ^ 53 ∧ power ≤ 22
  · exact exact_ofScientific_of_lt hfew.1 hfew.2 negative
  · obtain ⟨r, hr, hs⟩ := ofScientific_shaped hdigits hlow hhigh
    refine ⟨r, _, hr, hs, ?_⟩
    rw [Float.ofScientific, dif_neg hfew]
    cases negative with
    | false => rfl
    | true =>
      have hneg : Int.negOfNat power = signedExponent true power := Int.negOfNat_eq
      simp only [if_true, hneg]
      rfl

/-! ## The nearest double -/

theorem length_repr (n : Nat) : (Nat.repr n).length = (Nat.toDigits 10 n).length := by
  rw [← String.length_toList, Nat.repr_eq_ofList_toDigits, String.toList_ofList]

theorem length_repr_le_iff {n k : Nat} (hk : 0 < k) : (Nat.repr n).length ≤ k ↔ n < 10 ^ k := by
  rw [length_repr]
  exact Nat.length_toDigits_le_iff (by omega) hk

/-- A natural in terms of how many digits it has. -/
theorem length_repr_bounds {n : Nat} (hn : 0 < n) :
    0 < (Nat.repr n).length ∧ 10 ^ ((Nat.repr n).length - 1) ≤ n ∧
      n < 10 ^ (Nat.repr n).length := by
  have hpos : 0 < (Nat.repr n).length := by
    rw [length_repr]
    exact Nat.length_toDigits_pos
  refine ⟨hpos, ?_, (length_repr_le_iff hpos).1 le_rfl⟩
  rcases Nat.eq_zero_or_pos ((Nat.repr n).length - 1) with hone | hmore
  · rw [hone]
    exact hn
  · by_contra hlt
    have := (length_repr_le_iff hmore).2 (not_le.1 hlt)
    omega

/-- The digits and the power of ten give the leading one of the decimal. -/
theorem decimal_bounds {digits : Nat} (hdigits : 0 < digits) (exponent : Int) :
    (10 : ℚ) ^ ((Nat.repr digits).length + exponent - 1) ≤ digits * 10 ^ exponent ∧
      (digits : ℚ) * 10 ^ exponent < 10 ^ ((Nat.repr digits).length + exponent) := by
  obtain ⟨hpos, hlow, hhigh⟩ := length_repr_bounds hdigits
  have hten := ten_zpow_pos exponent
  constructor
  · calc (10 : ℚ) ^ ((Nat.repr digits).length + exponent - 1)
        = (10 ^ ((Nat.repr digits).length - 1) : Nat) * 10 ^ exponent := by
          rw [Nat.cast_pow, ← zpow_natCast, Nat.cast_ofNat, ← zpow_add₀ (by norm_num)]
          congr 1
          omega
      _ ≤ digits * 10 ^ exponent := mul_le_mul_of_nonneg_right (Nat.cast_le.2 hlow) hten.le
  · calc (digits : ℚ) * 10 ^ exponent
        < (10 ^ (Nat.repr digits).length : Nat) * 10 ^ exponent :=
          mul_lt_mul_of_pos_right (Nat.cast_lt.2 hhigh) hten
      _ = 10 ^ ((Nat.repr digits).length + exponent) := by
          rw [Nat.cast_pow, ← zpow_natCast, Nat.cast_ofNat, ← zpow_add₀ (by norm_num)]

/-- All powers of two that doubles have lie within this power of ten. -/
theorem two_zpow_le_ten : (2 : ℚ) ^ (1090 : Int) ≤ 10 ^ (330 : Int) := by
  calc (2 : ℚ) ^ (1090 : Int) = (2 ^ 109) ^ 10 := by
        rw [← pow_mul]
        exact zpow_natCast 2 1090
    _ ≤ (10 ^ 33) ^ 10 := pow_le_pow_left₀ (by positivity) (by norm_num) 10
    _ = 10 ^ (330 : Int) := by
        rw [← pow_mul]
        exact (zpow_natCast 10 330).symm

/-- What is rounded to a positive double is not too small for one. -/
theorem Rounds.lt_of_pos {x r : ℚ} (h : Rounds x r) (hr : 0 < r) : (10 : ℚ) ^ (-330 : Int) < x := by
  have hspacing : Spacing (2 ^ (-1076 : Int)) (-1074) :=
    ⟨le_rfl, zpow_lt_zpow_right₀ (by norm_num) (by decide), .inl rfl⟩
  have hquarter : (2 : ℚ) ^ (-1076 : Int) / 2 ^ (-1074 : Int) = 1 / 4 := by
    rw [← zpow_sub₀ (by norm_num)]
    norm_num
  have hzero : Rounds (2 ^ (-1076 : Int)) 0 := by
    refine ⟨-1074, hspacing, ?_⟩
    rw [hquarter]
    norm_num [nearestEven]
  by_contra hle
  have hsmall : (10 : ℚ) ^ (-330 : Int) ≤ 2 ^ (-1076 : Int) := by
    rw [zpow_neg, zpow_neg]
    exact inv_anti₀ (two_zpow_pos _) ((two_zpow_le (by decide)).trans two_zpow_le_ten)
  exact absurd (h.mono hzero ((not_lt.1 hle).trans hsmall)) (not_le.2 hr)

/-- What is rounded to a double is not too great for one. -/
theorem Rounds.lt_of_lt_beyond {x r : ℚ} (h : Rounds x r) (hr : r < beyond) :
    x < (10 : ℚ) ^ (330 : Int) := by
  have hc : Canonical (2 ^ 52) 972 := ⟨by decide, by decide, .inl le_rfl⟩
  by_contra hge
  have hgreat : ((2 ^ 52 : Nat) : ℚ) * 2 ^ (972 : Int) ≤ 10 ^ (330 : Int) :=
    hc.spacing.lt.le.trans ((two_zpow_le (by decide)).trans two_zpow_le_ten)
  have := hc.rounds.mono h (hgreat.trans (not_lt.1 hge))
  exact absurd (hr.trans_le (hc.beyond_le (by decide))) (not_lt.2 this)

/-- A decimal that rounds to a positive double is read as this double. -/
theorem exact_nearest {digits m : Nat} {exponent e : Int} (hm : 0 < m) (hc : Canonical m e)
    (he : e ≤ 971) (h : Rounds (digits * 10 ^ exponent) (m * 2 ^ e)) :
    exact (nearest digits exponent) = .finite .positive m e hm := by
  have hlow := h.lt_of_pos (mantissa_mul_pos hm e)
  have hhigh := h.lt_of_lt_beyond (hc.lt_beyond he)
  have hdigits : 0 < digits := by
    rw [Nat.pos_iff_ne_zero]
    rintro rfl
    rw [Nat.cast_zero, zero_mul] at hlow
    exact absurd hlow (not_lt.2 (ten_zpow_pos _).le)
  obtain ⟨hleading, hsize⟩ := decimal_bounds hdigits exponent
  have hleast := (zpow_lt_zpow_iff_right₀ (by norm_num)).1 (hlow.trans hsize)
  have hmost := (zpow_lt_zpow_iff_right₀ (by norm_num)).1 (hleading.trans_lt hhigh)
  obtain ⟨hpos, hten, -⟩ := length_repr_bounds hdigits
  -- there are no more decimal digits than binary ones
  have hlog : (Nat.repr digits).length - 1 ≤ digits.log2 :=
    (Nat.le_log2 hdigits.ne').2 ((Nat.pow_le_pow_left (by decide) _).trans hten)
  have hsign : signedExponent (decide (exponent < 0)) exponent.natAbs = exponent := by
    unfold signedExponent
    by_cases hneg : exponent < 0
    · rw [if_pos (decide_eq_true hneg)]
      omega
    · rw [if_neg (by simpa using hneg)]
      omega
  have hread := exact_ofScientific hdigits (decide (exponent < 0)) exponent.natAbs
  rw [hsign] at hread
  obtain ⟨r, u, hr, hs, hexact⟩ := hread (by omega) (by omega)
  have hu : u = .finite .positive m e hm := hs.unique (.finite hm hc) (hr.unique h)
  rw [nearest, if_neg (by omega), if_neg (by omega), hexact, hu]
  exact hc.stored_eq hm he

/-! ## Literals -/

namespace Literal

/-- The decimal that a literal stands for, without its sign. -/
def magnitude (l : Literal) : ℚ :=
  naturalOf (l.whole ++ l.fraction) * 10 ^ (l.exponent - l.fraction.length)

/-- A literal of which the decimal rounds to the size of a double, and of its sign, is read as this
double. -/
theorem value_eq {l : Literal} {x : Float} {s : Sign} {m : Nat} {e : Int} {hm : 0 < m}
    (hx : exact x = .finite s m e hm) (hsign : l.negative = (s == .negative))
    (h : Rounds l.magnitude (m * 2 ^ e)) : l.value = x := by
  have hproper := proper_exact x
  rw [hx] at hproper
  cases hproper with
  | finite _ hc he =>
    have hnearest := exact_nearest hm hc he h
    apply exact_injective
    rw [value, hx, hsign]
    cases s with
    | positive => exact hnearest
    | negative =>
      show exact (-nearest _ _) = _
      rw [exact_neg, hnearest]
      rfl

/-- A literal of zeros only is read as the zero of its sign. -/
theorem value_eq_of_zero {l : Literal} {x : Float} {s : Sign} (hx : exact x = .zero s)
    (hsign : l.negative = (s == .negative)) (h : naturalOf (l.whole ++ l.fraction) = 0) :
    l.value = x := by
  apply exact_injective
  rw [value, hx, hsign, h]
  have hzero : exact (nearest 0 (l.exponent - l.fraction.length)) = .zero .positive := by
    rw [nearest, if_pos (.inl rfl)]
    exact exact_zero
  cases s with
  | positive => exact hzero
  | negative =>
    show exact (-nearest _ _) = _
    rw [exact_neg, hzero]
    rfl

/-- The double nearest to a literal, unless it is infinite. -/
def nearest? (l : Literal) : Option Float :=
  finite? l.value

theorem nearest?_eq {l : Literal} {x : Float} (h : l.value = x) (hx : x.isFinite = true) :
    l.nearest? = some x := by
  rw [nearest?, h, finite?]
  split
  · next s hexact =>
    have hfinite : (exact x).isFinite = true := hx
    rw [hexact] at hfinite
    cases hfinite
  · rfl

end Literal

end LoadProbe.Number
