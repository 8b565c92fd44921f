import LoadProbe.Proofs.Number.Double

/-!
# Arithmetic on doubles

The double of a natural is the rounding of this natural (`ofNat_eq`), and products and quotients are
the roundings of the exact ones (`Shaped.mul`, `Shaped.div`). So a positive factor keeps the order
of naturals (`size_mul_mono`), and a share of naturals lies between 0 and 1 (`share_mem`).
-/

namespace LoadProbe.Number

open Float.Model Float.Model.UnpackedFloat

/-- An exact mantissa tells of the rational that it stands for. -/
theorem tells_exact (m : Nat) (e : Int) :
    Tells (.ofMantissaAndAccuracy m .exact) (m * 2 ^ e / 2 ^ e) :=
  mul_div_cancel_right₀ _ (two_zpow_pos e).ne'

/-- A mantissa and an exponent are rounded to a double, also when the exponent has to become
smaller. -/
theorem round_shaped {s : Sign} {m : Nat} (hm : 0 < m) (e : Int) :
    ∃ r, Rounds (m * 2 ^ e) r ∧ Shaped s r (UnpackedFloat.round .binary64 s m e) := by
  obtain ⟨k, hk⟩ : ∃ k, (e - max (m.log2 + e - 52) (-1074)).toNat = k := ⟨_, rfl⟩
  have hval : ((m <<< k : Nat) : ℚ) * 2 ^ (e - (k : Int)) = m * 2 ^ e := by
    rw [Nat.shiftLeft_eq, Nat.cast_mul, mul_assoc, Nat.cast_pow, Nat.cast_ofNat, ← zpow_natCast,
      ← zpow_add₀ (by norm_num), add_sub_cancel]
  have hbits : 2 ^ 52 ≤ m <<< k ∨ e - (k : Int) ≤ -1074 := by
    rcases le_or_gt (e - (k : Int)) (-1074) with h | h
    · exact .inr h
    · left
      calc 2 ^ 52 ≤ 2 ^ (m.log2 + k) := Nat.pow_le_pow_right (by decide) (by omega)
        _ = 2 ^ m.log2 * 2 ^ k := pow_add 2 _ _
        _ ≤ m * 2 ^ k := Nat.mul_le_mul_right _ (Nat.log2_self_le hm.ne')
        _ = m <<< k := (Nat.shiftLeft_eq m k).symm
  have hshape := roundWithAccuracy_shaped (s := s) (tells_exact (m <<< k) (e - k)) hbits
  rw [hval] at hshape
  simpa only [UnpackedFloat.round, decreaseExponent, targetExponent_eq, hk] using hshape

/-! ## Naturals -/

/-- A natural is rounded to a double. -/
theorem ofNat_shaped (n : Nat) :
    ∃ r, Rounds n r ∧ Shaped .positive r (UnpackedFloat.ofNat .binary64 n) := by
  rcases Nat.eq_zero_or_pos n with rfl | hn
  · exact ⟨0, by simpa using rounds_zero, .zero⟩
  · have hgt : compare (n : Int) 0 = .gt := compare_gt_iff_gt.2 (by omega)
    have := round_shaped (s := .positive) hn 0
    rw [zpow_zero, mul_one] at this
    simpa only [UnpackedFloat.ofNat, UnpackedFloat.ofInt, UnpackedFloat.normalize, hgt,
      Int.toNat_natCast] using this

/-- Multiplication by one changes no rounded value. -/
theorem mul_one_shaped {r : ℚ} {u : UnpackedFloat} (h : Shaped .positive r u) :
    UnpackedFloat.mul .binary64 u (.finite .positive (2 ^ 52) (-52) (by decide)) = u := by
  cases h with
  | zero => rfl
  | @finite m e hp hc =>
    have hval : ((m * 2 ^ 52 : Nat) : ℚ) * 2 ^ (e + -52) = m * 2 ^ e := by
      rw [Nat.cast_mul, mul_assoc, Nat.cast_pow, Nat.cast_ofNat, ← zpow_natCast,
        ← zpow_add₀ (by norm_num)]
      congr 2
      omega
    have hbits : 2 ^ 52 ≤ m * 2 ^ 52 ∨ e + -52 ≤ -1074 := .inl (Nat.le_mul_of_pos_left _ hp)
    obtain ⟨r, hr, hs⟩ :=
      roundWithAccuracy_shaped (s := .positive) (tells_exact (m * 2 ^ 52) (e + -52)) hbits
    rw [hval] at hr
    exact hs.unique (.finite hp hc) (hr.unique hc.rounds)

/-- No word of 64 bits is rounded to an infinity. -/
theorem Rounds.lt_beyond {n : Nat} {r : ℚ} (h : Rounds n r) (hn : n < 2 ^ 64) : r < beyond := by
  have hc : Canonical (2 ^ 52) 12 := ⟨by decide, by decide, .inl le_rfl⟩
  have hle : (n : ℚ) ≤ (2 ^ 52 : Nat) * 2 ^ (12 : Int) := by
    have : n ≤ 2 ^ 52 * 2 ^ 12 := by omega
    exact_mod_cast this
  exact (h.mono hc.rounds hle).trans_lt (hc.lt_beyond (by decide))

/-- The decimal reading of a natural without a power of ten rounds it. -/
theorem ofScientific_zero (n : Nat) :
    UnpackedFloat.ofScientific .binary64 n 0 = UnpackedFloat.ofNat .binary64 n := by
  obtain ⟨r, hr, hs⟩ := ofNat_shaped n
  rcases Nat.eq_zero_or_pos n with rfl | hn
  · rfl
  have hval : ((n <<< 53 * 10 ^ 0 : Nat) : ℚ) * 2 ^ (-53 + 0 : Int) = n := by
    rw [pow_zero, mul_one, Nat.shiftLeft_eq]
    push_cast
    exact mul_inv_cancel_right₀ (by norm_num) _
  have hbits : 2 ^ 52 ≤ n <<< 53 * 10 ^ 0 ∨ (-53 + 0 : Int) ≤ -1074 := by
    left
    rw [pow_zero, mul_one, Nat.shiftLeft_eq]
    omega
  obtain ⟨q, hq, hs'⟩ := roundWithAccuracy_shaped (s := .positive)
    (tells_exact (n <<< 53 * 10 ^ 0) (-53 + 0)) hbits
  rw [hval] at hq
  rw [← hs'.unique hs (hq.unique hr), UnpackedFloat.ofScientific, dif_neg hn.ne', if_neg (by decide),
    if_neg (by have : (2 : Int) ^ Format.binary64.exponentBits = 2048 := rfl; omega), if_pos le_rfl]
  rfl

/-- The double of a natural is the rounding of this natural. -/
theorem ofNat_eq (n : Nat) : Float.ofNat n = .ofModel (.ofNat n) := by
  show Float.ofScientific n false 0 = _
  unfold Float.ofScientific
  split
  · rename_i h
    obtain ⟨r, hr, hs⟩ := ofNat_shaped n
    have hword : n.toUInt64.toFloat = .ofModel (.ofNat n) := by
      have : n.toUInt64.toNat = n := by
        rw [UInt64.toNat_ofNat', Nat.mod_eq_of_lt (by omega)]
      show Float.ofModel (.ofNat n.toUInt64.toNat) = _
      rw [this]
    have hmul : UnpackedFloat.mul .binary64 (stored (UnpackedFloat.ofNat .binary64 n))
        (.finite .positive (2 ^ 52) (-52) (by decide)) = UnpackedFloat.ofNat .binary64 n := by
      rw [hs.stored_eq, if_pos (hr.lt_beyond (by omega)), mul_one_shaped hs]
    show n.toUInt64.toFloat * Float.ofBits 0x3FF0000000000000 = _
    rw [hword]
    exact congrArg (fun u => Float.ofModel (.pack u)) hmul
  · show Float.ofModel (.pack (UnpackedFloat.ofScientific .binary64 n 0)) = _
    rw [ofScientific_zero]
    rfl

/-- Of a natural its rounding is kept. -/
theorem exact_ofNat (n : Nat) : ∃ r u, Rounds n r ∧ Shaped .positive r u ∧
    exact (Float.ofNat n) = stored u := by
  obtain ⟨r, hr, hs⟩ := ofNat_shaped n
  refine ⟨r, _, hr, hs, ?_⟩
  rw [ofNat_eq]
  rfl

/-- The double of a natural below `2 ^ 64` is the rounding of this natural. -/
theorem exact_ofNat_of_lt {n : Nat} (h : n < 2 ^ 64) :
    ∃ r, Rounds n r ∧ Shaped .positive r (exact (Float.ofNat n)) := by
  obtain ⟨r, u, hr, hu, he⟩ := exact_ofNat n
  rw [hu.stored_eq, if_pos (hr.lt_beyond h)] at he
  exact ⟨r, hr, he ▸ hu⟩

/-- A word of 64 bits becomes the double of its natural. -/
theorem toFloat_eq (w : UInt64) : w.toFloat = Float.ofNat w.toNat := by
  rw [ofNat_eq]
  rfl

/-! ## Products -/

theorem exact_mul (x y : Float) :
    exact (x * y) = stored (UnpackedFloat.mul .binary64 (exact x) (exact y)) :=
  rfl

theorem exact_zero : exact 0.0 = .zero .positive := by
  rfl

/-- A product of rounded values is the rounding of the exact product. -/
theorem Shaped.mul {r q : ℚ} {u v : UnpackedFloat} (hu : Shaped .positive r u)
    (hv : Shaped .positive q v) :
    ∃ p, Rounds (r * q) p ∧ Shaped .positive p (UnpackedFloat.mul .binary64 u v) := by
  cases hu with
  | zero =>
    rw [zero_mul]
    refine ⟨0, rounds_zero, ?_⟩
    cases hv <;> exact .zero
  | @finite m e hm hc =>
    cases hv with
    | zero =>
      rw [mul_zero]
      exact ⟨0, rounds_zero, .zero⟩
    | @finite n f hn hd =>
      have hval : (m : ℚ) * 2 ^ e * (n * 2 ^ f) = (m * n : Nat) * 2 ^ (e + f) := by
        rw [zpow_add₀ (by norm_num)]
        push_cast
        ring
      have hbits : 2 ^ 52 ≤ m * n ∨ e + f ≤ -1074 := by
        rcases hc.full with h | h
        · exact .inl (h.trans (Nat.le_mul_of_pos_right _ hn))
        · rcases hd.full with h' | h'
          · exact .inl (h'.trans (Nat.le_mul_of_pos_left _ hm))
          · exact .inr (by omega)
      rw [hval]
      exact roundWithAccuracy_shaped (tells_exact (m * n) (e + f)) hbits

/-- What is greater than zero is infinite or a rounded value. -/
theorem exact_of_pos {x : Float} (h : 0.0 < x) :
    exact x = .infinity .positive ∨ ∃ r, 0 < r ∧ Shaped .positive r (exact x) := by
  obtain ⟨-, -, hlt⟩ := lt_iff.1 h
  have hp := proper_exact x
  rw [exact_zero] at hlt
  generalize exact x = u at hlt hp
  cases hp with
  | notANumber | zero => exact absurd hlt (lt_irrefl _)
  | infinity s =>
    cases s with
    | positive => exact .inl rfl
    | negative =>
      have := beyond_pos
      simp only [size] at hlt
      linarith
  | @finite s m e hm hc _ =>
    cases s with
    | positive => exact .inr ⟨_, mantissa_mul_pos hm e, .finite hm hc⟩
    | negative =>
      have := mantissa_mul_pos hm e
      simp only [size] at hlt
      linarith

/-- A positive natural is not rounded to zero. -/
theorem Rounds.pos {n : Nat} {r : ℚ} (h : Rounds n r) (hn : 0 < n) : 0 < r := by
  have hle : (2 ^ 52 : Nat) * (2 : ℚ) ^ (-52 : Int) ≤ n := by
    have : (1 : ℚ) ≤ n := by exact_mod_cast hn
    exact le_trans (le_of_eq (by norm_num)) this
  exact (mantissa_mul_pos (by decide) _).trans_le (Canonical.one.rounds.mono h hle)

theorem size_stored_infinity : size (stored (.infinity .positive)) = beyond := by
  rw [stored_infinity]
  rfl

/-- A positive natural times an infinity is infinite. -/
theorem size_mul_infinity {x : Float} (hx : exact x = .infinity .positive) {n : Nat} (hn : 0 < n) :
    size (exact (Float.ofNat n * x)) = beyond := by
  obtain ⟨r, u, hr, hu, he⟩ := exact_ofNat n
  rw [exact_mul, hx, he, hu.stored_eq]
  cases hu with
  | zero => exact absurd (hr.pos hn) (lt_irrefl _)
  | finite _ _ => split <;> exact size_stored_infinity

/-- A positive factor keeps the order of naturals, also where the product is infinite. -/
theorem size_mul_mono {x : Float} (hx : 0.0 < x) {a b : Nat} (h : a ≤ b) :
    size (exact (Float.ofNat a * x)) ≤ size (exact (Float.ofNat b * x)) := by
  obtain ⟨r, u, hr, hu, ha⟩ := exact_ofNat a
  obtain ⟨q, v, hq, hv, hb⟩ := exact_ofNat b
  have hrq : r ≤ q := hr.mono hq (by exact_mod_cast h)
  have htop : size (exact (Float.ofNat a * x)) ≤ beyond :=
    (le_abs_self _).trans (proper_exact _).abs_size_le
  rcases exact_of_pos hx with hinf | ⟨p, hp, hs⟩
  · rcases Nat.eq_zero_or_pos b with rfl | hpos
    · rw [Nat.le_zero.1 h]
    · rw [size_mul_infinity hinf hpos]
      exact htop
  · rcases lt_or_ge q beyond with hlt | hge
    · obtain ⟨r', hr', hu'⟩ := hu.mul hs
      obtain ⟨q', hq', hv'⟩ := hv.mul hs
      rw [exact_mul, ha, hu.stored_eq, if_pos (hrq.trans_lt hlt), hu'.size_stored, exact_mul, hb,
        hv.stored_eq, if_pos hlt, hv'.size_stored]
      exact min_le_min_right _ (hr'.mono hq' (mul_le_mul_of_nonneg_right hrq hp.le))
    · have htop' : size (exact (Float.ofNat b * x)) = beyond := by
        rw [exact_mul, hb, hv.stored_eq, if_neg (not_lt.2 hge)]
        generalize exact x = y at hs
        cases hs with
        | zero => exact absurd hp (lt_irrefl _)
        | finite _ _ => exact size_stored_infinity
      rw [htop']
      exact htop

/-! ## Quotients -/

theorem exact_div (x y : Float) :
    exact (x / y) = stored (UnpackedFloat.div .binary64 (exact x) (exact y)) :=
  rfl

/-- A fraction is compared with the middle between two integers. -/
theorem tells_add_div (d : Nat) {r n : Nat} (h : r < n) :
    Tells (.ofMantissaAndAccuracy d (accuracyOfFraction r n)) (d + r / n : ℚ) := by
  have hn : (0 : ℚ) < n := Nat.cast_pos.2 (Nat.zero_lt_of_lt h)
  unfold accuracyOfFraction
  split
  · rename_i h0
    simp [h0, ExtendedMantissa.ofMantissaAndAccuracy, Tells]
  · rename_i h0
    have hr : (0 : ℚ) < r := Nat.cast_pos.2 (Nat.pos_of_ne_zero h0)
    have hlow : (0 : ℚ) < r / n := div_pos hr hn
    have htop : (r / n : ℚ) < 1 := (div_lt_one hn).2 (Nat.cast_lt.2 h)
    rcases lt_trichotomy (2 * r) n with h2 | h2 | h2
    · have : (r / n : ℚ) < 1 / 2 := by
        rw [div_lt_div_iff₀ hn two_pos]
        exact_mod_cast (by omega : r * 2 < 1 * n)
      rw [compare_lt_iff_lt.2 h2]
      exact ⟨by linarith, by linarith⟩
    · have : (r / n : ℚ) = 1 / 2 := by
        rw [div_eq_div_iff hn.ne' two_ne_zero]
        exact_mod_cast (by omega : r * 2 = 1 * n)
      rw [compare_eq_iff_eq.2 h2]
      show (d : ℚ) + r / n = d + 1 / 2
      rw [this]
    · have : (1 / 2 : ℚ) < r / n := by
        rw [div_lt_div_iff₀ two_pos hn]
        exact_mod_cast (by omega : 1 * n < r * 2)
      rw [compare_gt_iff_gt.2 h2]
      exact ⟨by linarith, by linarith⟩

/-- A quotient of naturals and its remainder tell of the exact quotient. -/
theorem tells_div {m n : Nat} (hn : 0 < n) :
    Tells (.ofMantissaAndAccuracy (m / n) (accuracyOfFraction (m % n) n)) (m / n : ℚ) := by
  have hsplit : (m : ℚ) = (m / n : Nat) * n + (m % n : Nat) := by
    exact_mod_cast (Nat.div_add_mod' m n).symm
  have hquot : (m / n : ℚ) = (m / n : Nat) + (m % n : Nat) / n := by
    rw [hsplit, add_div, mul_div_cancel_right₀ _ (Nat.cast_pos.2 hn).ne']
  rw [hquot]
  exact tells_add_div (m / n) (Nat.mod_lt m hn)

/-- The numerator of a quotient gets so many bits that 53 of them are left, or it is cut below the
smallest exponent. -/
theorem divCore_bits {m n : Nat} (hm : 0 < m) (hn : 0 < n) {k : Nat} {t d : Int}
    (ht : t = min d (max (m.log2 - n.log2 + d - 53) (-1074))) (hk : k = (d - t).toNat) :
    2 ^ 52 ≤ (m <<< k) / n ∨ t ≤ -1074 := by
  rcases le_or_gt t (-1074) with h | h
  · exact .inr h
  · left
    rw [Nat.le_div_iff_mul_le hn, Nat.shiftLeft_eq]
    calc 2 ^ 52 * n ≤ 2 ^ 52 * 2 ^ (n.log2 + 1) := Nat.mul_le_mul_left _ Nat.lt_log2_self.le
      _ = 2 ^ (n.log2 + 53) := by rw [← pow_add]; congr 1; omega
      _ ≤ 2 ^ (m.log2 + k) := Nat.pow_le_pow_right (by decide) (by omega)
      _ = 2 ^ m.log2 * 2 ^ k := pow_add 2 _ _
      _ ≤ m * 2 ^ k := Nat.mul_le_mul_right _ (Nat.log2_self_le hm.ne')

/-- The exponent that a quotient is formed at, and the quotient of the shifted numerator. -/
theorem divCore_eq {m n : Nat} {e f t : Int} {k : Nat}
    (ht : t = min (e - f) (max (m.log2 - n.log2 + (e - f) - 53) (-1074)))
    (hk : k = (e - f - t).toNat) :
    divCore .binary64 m e n f =
      ((m <<< k) / n, t, accuracyOfFraction ((m <<< k) % n) n) := by
  have hmin : min (e - f)
      (Format.binary64.targetExponent (totalExponent m e - totalExponent n f)) = t := by
    simp only [ht, Format.targetExponent, totalExponent, Format.mantissaBits, Format.minExponent]
    norm_num
    omega
  simp only [divCore, hmin, hk]

/-- The shifted numerator makes up for the difference of the exponents. -/
theorem div_eq_shifted {m n k : Nat} {e f t : Int} (h : e = k + (f + t)) :
    (m * 2 ^ e / (n * 2 ^ f) : ℚ) / 2 ^ t = (m <<< k : Nat) / n := by
  have hpow : (2 : ℚ) ^ e = 2 ^ k * (2 ^ f * 2 ^ t) := by
    rw [h, zpow_add₀ (by norm_num), zpow_add₀ (by norm_num), zpow_natCast]
  have hf := (two_zpow_pos f).ne'
  have ht := (two_zpow_pos t).ne'
  rw [Nat.shiftLeft_eq, hpow]
  push_cast
  field_simp

/-- A quotient of mantissas is rounded. -/
theorem div_finite_shaped {m n : Nat} (hm : 0 < m) (hn : 0 < n) (e f : Int) :
    ∃ p, Rounds (m * 2 ^ e / (n * 2 ^ f)) p ∧ Shaped .positive p
      (UnpackedFloat.div .binary64 (.finite .positive m e hm) (.finite .positive n f hn)) := by
  obtain ⟨t, ht⟩ : ∃ t, t = min (e - f) (max ((m.log2 : Int) - n.log2 + (e - f) - 53) (-1074)) :=
    ⟨_, rfl⟩
  obtain ⟨k, hk⟩ : ∃ k, k = (e - f - t).toNat := ⟨_, rfl⟩
  have htells : Tells (.ofMantissaAndAccuracy ((m <<< k) / n)
      (accuracyOfFraction ((m <<< k) % n) n)) ((m * 2 ^ e / (n * 2 ^ f) : ℚ) / 2 ^ t) := by
    rw [div_eq_shifted (show e = k + (f + t) by omega)]
    exact tells_div hn
  have hdiv : UnpackedFloat.div .binary64 (.finite .positive m e hm)
      (.finite .positive n f hn) = roundWithAccuracy .binary64 .positive ((m <<< k) / n) t
        (accuracyOfFraction ((m <<< k) % n) n) := by
    simp only [UnpackedFloat.div, divCore_eq ht hk]
    rfl
  rw [hdiv]
  exact roundWithAccuracy_shaped htells (divCore_bits hm hn ht hk)

/-- A quotient of rounded values is the rounding of the exact quotient. -/
theorem Shaped.div {r q : ℚ} {u v : UnpackedFloat} (hu : Shaped .positive r u)
    (hv : Shaped .positive q v) (hq : 0 < q) :
    ∃ p, Rounds (r / q) p ∧ Shaped .positive p (UnpackedFloat.div .binary64 u v) := by
  cases hv with
  | zero => exact absurd hq (lt_irrefl _)
  | @finite n f hn _ =>
    cases hu with
    | zero =>
      rw [zero_div]
      exact ⟨0, rounds_zero, .zero⟩
    | @finite m e hm _ => exact div_finite_shaped hm hn e f

theorem exact_one : exact 1.0 = .finite .positive (2 ^ 52) (-52) (by decide) := by
  rfl

theorem Shaped.ne_notANumber {s : Sign} {r : ℚ} {u : UnpackedFloat} (h : Shaped s r u) :
    u ≠ .notANumber := by
  rintro rfl
  cases h

/-- A share of naturals lies between 0 and 1, rounding included. -/
theorem share_mem {a b : Nat} (hab : a ≤ b) (hpos : 0 < b) (hb : b < 2 ^ 64) :
    0.0 ≤ Float.ofNat a / Float.ofNat b ∧ Float.ofNat a / Float.ofNat b ≤ 1.0 := by
  obtain ⟨r, hr, hu⟩ := exact_ofNat_of_lt (hab.trans_lt hb)
  obtain ⟨q, hq, hv⟩ := exact_ofNat_of_lt hb
  have hqpos := hq.pos hpos
  obtain ⟨p, hp, hw⟩ := hu.div hv hqpos
  have hle : p ≤ (2 ^ 52 : Nat) * 2 ^ (-52 : Int) := by
    refine hp.mono Canonical.one.rounds ?_
    calc r / q ≤ 1 := (div_le_one hqpos).2 (hr.mono hq (by exact_mod_cast hab))
      _ = (2 ^ 52 : Nat) * 2 ^ (-52 : Int) := by norm_num
  have hquot : Shaped .positive p (exact (Float.ofNat a / Float.ofNat b)) := by
    rw [exact_div, hw.stored_eq, if_pos (hle.trans_lt (Canonical.one.lt_beyond (by decide)))]
    exact hw
  rw [le_iff, le_iff, hquot.size_eq, exact_zero, exact_one]
  exact ⟨⟨nofun, hquot.ne_notANumber, hquot.nonneg⟩, hquot.ne_notANumber, nofun, hle⟩

/-- A word divided by a positive natural is a number, also where the natural is rounded to an
infinity. -/
theorem quotient_ne_notANumber {a b : Nat} (ha : a < 2 ^ 64) (hb : 0 < b) :
    exact (Float.ofNat a / Float.ofNat b) ≠ .notANumber := by
  obtain ⟨r, hr, hu⟩ := exact_ofNat_of_lt ha
  obtain ⟨q, v, hq, hv, he⟩ := exact_ofNat b
  have hqpos := hq.pos hb
  rw [exact_div, he, hv.stored_eq]
  split
  · obtain ⟨p, -, hw⟩ := hu.div hv hqpos
    rw [hw.stored_eq]
    split
    · exact hw.ne_notANumber
    · exact nofun
  · generalize exact (Float.ofNat a) = u at hu
    cases hu <;> simp only [UnpackedFloat.div, stored_zero] <;> exact nofun

/-- No share of nothing reaches a positive bound. -/
theorem not_le_share_zero {x : Float} (hx : 0.0 < x) (b : Nat) :
    ¬ x ≤ Float.ofNat 0 / Float.ofNat b := by
  intro hle
  have hpos := (lt_iff.1 hx).2.2
  have hsize := (le_iff.1 hle).2.2
  have hzero : exact (Float.ofNat 0) = .zero .positive := rfl
  have hshare : size (exact (Float.ofNat 0 / Float.ofNat b)) = 0 := by
    rw [exact_div, hzero]
    cases exact (Float.ofNat b) <;>
      simp only [UnpackedFloat.div, stored_zero, stored_notANumber] <;> rfl
  rw [exact_zero] at hpos
  rw [hshare] at hsize
  exact absurd hpos (not_lt.2 hsize)

/-! ## The floor -/

/-- The floor of a mantissa and an exponent is that of the rational that they stand for. -/
theorem floorScaled_eq (s : Sign) (m : Nat) (e : Int) (h : 0 < m) :
    floorScaled s m e = ⌊size (.finite s m e h)⌋ := by
  have hsize : size (.finite s m e h) = signed s m * (2 : ℚ) ^ e := by
    cases s <;> simp [size, signed]
  rw [hsize, floorScaled]
  split
  · rename_i he
    obtain ⟨k, rfl⟩ := Int.eq_ofNat_of_zero_le he
    have : (signed s m : ℚ) * 2 ^ (k : Int) = (signed s m * Nat.pow 2 k : Int) := by
      rw [zpow_natCast, Nat.pow_eq]
      push_cast
      rfl
    rw [this, Int.floor_intCast]
    rfl
  · rename_i he
    obtain ⟨k, hk⟩ := Int.eq_ofNat_of_zero_le (show 0 ≤ -e by omega)
    have : (signed s m : ℚ) * 2 ^ e = signed s m / (2 ^ k : Nat) := by
      rw [show e = -(k : Int) by omega, zpow_neg, zpow_natCast, div_eq_mul_inv]
      push_cast
      rfl
    rw [this, Rat.floor_intCast_div_natCast, hk]
    rfl

/-- The floor of a double in a word is that of the rational that it stands for, clamped. -/
theorem floorIn_eq (x : Float) : floorIn signed64 x = signed64.clamp ⌊size (exact x)⌋ := by
  have htop : (2 : Int) ^ 64 ≤ ⌊beyond⌋ := by
    rw [Int.le_floor]
    have : (2 : ℚ) ^ (64 : Int) ≤ beyond := two_zpow_le (by decide)
    exact_mod_cast this
  have hbot : ⌊-beyond⌋ ≤ -2 ^ 64 := by
    have := Int.floor_le_ceil beyond
    rw [Int.floor_neg]
    omega
  rw [floorIn]
  cases exact x with
  | notANumber | zero => rfl
  | infinity s =>
    cases s <;> simp only [floorExact, size, Range.clamp, signed64] <;> omega
  | finite s m e h => rw [floorExact, floorScaled_eq s m e h]

/-- Clamping keeps the order of integers. -/
theorem clamp_mono (r : Range) {a b : Int} (h : a ≤ b) : r.clamp a ≤ r.clamp b := by
  simp only [Range.clamp]
  omega

end LoadProbe.Number
