import LoadProbe.Number.Exact
import Mathlib

/-!
# Rounding to doubles

A result of arithmetic is rounded once: it is cut at the unit of the doubles of its size
(`Spacing`), and the nearest multiple of that unit is taken, the even one of two (`nearestEven`).
`Rounds x r` says this of rationals, without the bits, and it is all that the arithmetic of doubles
does (`roundWithAccuracy_shaped`). Rounding keeps the order of rationals (`Rounds.mono`), so a
rational has one rounding (`Rounds.unique`), and it leaves alone what a double can be
(`Canonical.rounds`).
-/

namespace LoadProbe.Number

open Float.Model Float.Model.UnpackedFloat

/-! ## The nearest integer -/

/-- The integer nearest to a rational, the even one of two. -/
def nearestEven (x : ℚ) : Int :=
  if x - ⌊x⌋ < 1 / 2 then ⌊x⌋
  else if x - ⌊x⌋ = 1 / 2 then ⌊x⌋ + ⌊x⌋ % 2
  else ⌊x⌋ + 1

theorem floor_le_nearestEven (x : ℚ) : ⌊x⌋ ≤ nearestEven x := by
  unfold nearestEven
  split
  · exact le_refl _
  · split <;> omega

theorem nearestEven_le_floor (x : ℚ) : nearestEven x ≤ ⌊x⌋ + 1 := by
  unfold nearestEven
  split
  · omega
  · split <;> omega

/-- Taking the nearest integer keeps the order. -/
theorem nearestEven_mono {x y : ℚ} (h : x ≤ y) : nearestEven x ≤ nearestEven y := by
  rcases lt_or_eq_of_le (Int.floor_le_floor h) with hlt | heq
  · calc nearestEven x ≤ ⌊x⌋ + 1 := nearestEven_le_floor x
      _ ≤ ⌊y⌋ := hlt
      _ ≤ nearestEven y := floor_le_nearestEven y
  · rcases lt_trichotomy (x - ⌊x⌋) (1 / 2) with hx | hx | hx
    · calc nearestEven x = ⌊y⌋ := by rw [nearestEven, if_pos hx, heq]
        _ ≤ nearestEven y := floor_le_nearestEven y
    · rw [nearestEven, nearestEven, if_neg (by linarith), if_pos hx, ← heq, if_neg (by linarith)]
      split <;> omega
    · rw [nearestEven.eq_1 y, ← heq, if_neg (by linarith), if_neg (by linarith)]
      exact nearestEven_le_floor x

/-- An integer is its own nearest one. -/
theorem nearestEven_intCast (n : Int) : nearestEven n = n := by
  simp [nearestEven]

/-! ## The unit of a rational -/

/-- `2 ^ t` is the distance of the doubles around `x`: there are 53 bits from the leading one of
`x` to the unit, or fewer at the smallest unit. -/
structure Spacing (x : ℚ) (t : Int) : Prop where
  low : -1074 ≤ t
  lt : x < 2 ^ (t + 53)
  full : t = -1074 ∨ 2 ^ (t + 52) ≤ x

/-- `r` is what the rational `x` is rounded to, as if there were no greatest double. -/
def Rounds (x r : ℚ) : Prop :=
  ∃ t, Spacing x t ∧ r = nearestEven (x / 2 ^ t) * 2 ^ t

theorem two_zpow_pos (t : Int) : (0 : ℚ) < 2 ^ t :=
  zpow_pos (by norm_num) t

theorem two_zpow_le {s t : Int} (h : s ≤ t) : (2 : ℚ) ^ s ≤ 2 ^ t :=
  zpow_le_zpow_right₀ (by norm_num) h

/-- A power of two in units of another one. -/
theorem two_zpow_add_nat (t : Int) (n : Nat) : (2 : ℚ) ^ (t + n) = (2 ^ n : Int) * 2 ^ t := by
  rw [zpow_add₀ (by norm_num), zpow_natCast]
  push_cast
  ring

/-- In its own unit a rational is rounded to at most 53 bits. -/
theorem Spacing.nearestEven_le {x : ℚ} {t : Int} (h : Spacing x t) :
    nearestEven (x / 2 ^ t) ≤ 2 ^ 53 := by
  have hx : x / 2 ^ t ≤ ((2 ^ 53 : Int) : ℚ) := by
    rw [div_le_iff₀ (two_zpow_pos t), ← two_zpow_add_nat]
    exact h.lt.le
  have := nearestEven_mono hx
  rwa [nearestEven_intCast] at this

/-- Above the smallest unit a rational is rounded to at least 53 bits. -/
theorem Spacing.le_nearestEven {x : ℚ} {t : Int} (h : Spacing x t) (ht : t ≠ -1074) :
    2 ^ 52 ≤ nearestEven (x / 2 ^ t) := by
  have hx : ((2 ^ 52 : Int) : ℚ) ≤ x / 2 ^ t := by
    rw [le_div_iff₀ (two_zpow_pos t), ← two_zpow_add_nat]
    exact h.full.resolve_left ht
  have := nearestEven_mono hx
  rwa [nearestEven_intCast] at this

/-- Rounding keeps the order of rationals: within one unit the nearest multiples are in order, and
where the unit changes there is a power of two between the results. -/
theorem Rounds.mono {x y r q : ℚ} (hx : Rounds x r) (hy : Rounds y q) (h : x ≤ y) : r ≤ q := by
  obtain ⟨t, ht, rfl⟩ := hx
  obtain ⟨u, hu, rfl⟩ := hy
  rcases lt_trichotomy t u with htu | rfl | hut
  · have hne : u ≠ -1074 := by have := ht.low; omega
    have h53 : (nearestEven (x / 2 ^ t) : ℚ) ≤ (2 ^ 53 : Int) := by
      exact_mod_cast ht.nearestEven_le
    have h52 : ((2 ^ 52 : Int) : ℚ) ≤ nearestEven (y / 2 ^ u) := by
      exact_mod_cast hu.le_nearestEven hne
    calc (nearestEven (x / 2 ^ t) : ℚ) * 2 ^ t ≤ (2 ^ 53 : Int) * 2 ^ t :=
          mul_le_mul_of_nonneg_right h53 (two_zpow_pos t).le
      _ = 2 ^ (t + 53) := (two_zpow_add_nat t 53).symm
      _ ≤ 2 ^ (u + 52) := two_zpow_le (by omega)
      _ = (2 ^ 52 : Int) * 2 ^ u := two_zpow_add_nat u 52
      _ ≤ nearestEven (y / 2 ^ u) * 2 ^ u :=
          mul_le_mul_of_nonneg_right h52 (two_zpow_pos u).le
  · have hle : x / 2 ^ t ≤ y / 2 ^ t := div_le_div_of_nonneg_right h (two_zpow_pos t).le
    have : (nearestEven (x / 2 ^ t) : ℚ) ≤ nearestEven (y / 2 ^ t) := by
      exact_mod_cast nearestEven_mono hle
    exact mul_le_mul_of_nonneg_right this (two_zpow_pos t).le
  · exfalso
    have hx : (2 : ℚ) ^ (t + 52) ≤ x := ht.full.resolve_left (by have := hu.low; omega)
    have hpow : (2 : ℚ) ^ (u + 53) ≤ 2 ^ (t + 52) := two_zpow_le (by omega)
    linarith [hu.lt]

/-- A rational is rounded in one way. -/
theorem Rounds.unique {x r q : ℚ} (hr : Rounds x r) (hq : Rounds x q) : r = q :=
  le_antisymm (hr.mono hq (le_refl x)) (hq.mono hr (le_refl x))

/-! ## What a double can be -/

/-- The mantissa and the exponent of a double, were there no greatest one: 53 bits with the leading
one, or fewer at the smallest exponent. -/
structure Canonical (m : Nat) (e : Int) : Prop where
  lt : m < 2 ^ 53
  low : -1074 ≤ e
  full : 2 ^ 52 ≤ m ∨ e = -1074

/-- What a double can be is spaced by its own exponent. -/
theorem Canonical.spacing {m : Nat} {e : Int} (h : Canonical m e) : Spacing (m * 2 ^ e) e where
  low := h.low
  lt := by
    have hp : (2 : ℚ) ^ (e + 53) = (2 ^ 53 : Int) * 2 ^ e := two_zpow_add_nat e 53
    rw [hp]
    exact mul_lt_mul_of_pos_right (by exact_mod_cast h.lt) (two_zpow_pos e)
  full := by
    rcases h.full with hm | he
    · right
      have hp : (2 : ℚ) ^ (e + 52) = (2 ^ 52 : Int) * 2 ^ e := two_zpow_add_nat e 52
      rw [hp]
      exact mul_le_mul_of_nonneg_right (by exact_mod_cast hm) (two_zpow_pos e).le
    · exact .inl he

/-- What a double can be is not changed by rounding. -/
theorem Canonical.rounds {m : Nat} {e : Int} (h : Canonical m e) :
    Rounds (m * 2 ^ e) (m * 2 ^ e) := by
  refine ⟨e, h.spacing, ?_⟩
  rw [mul_div_cancel_right₀ _ (two_zpow_pos e).ne']
  have := nearestEven_intCast m
  rw [Int.cast_natCast] at this
  rw [this, Int.cast_natCast]

theorem Canonical.zero : Canonical 0 (-1074) :=
  ⟨by decide, le_rfl, .inr rfl⟩

theorem Canonical.one : Canonical (2 ^ 52) (-52) :=
  ⟨by decide, by decide, .inl le_rfl⟩

/-- Zero is rounded to itself. -/
theorem rounds_zero : Rounds 0 0 := by
  simpa using Canonical.zero.rounds

/-- A greater exponent makes a greater double. -/
theorem Canonical.lt_of_exponent_lt {m n : Nat} {e f : Int} (hm : Canonical m e)
    (hn : Canonical n f) (h : e < f) : (m : ℚ) * 2 ^ e < n * 2 ^ f := by
  have hf : f ≠ -1074 := by have := hm.low; omega
  calc (m : ℚ) * 2 ^ e < 2 ^ (e + 53) := hm.spacing.lt
    _ ≤ 2 ^ (f + 52) := two_zpow_le (by omega)
    _ ≤ n * 2 ^ f := hn.spacing.full.resolve_left hf

/-- A mantissa and an exponent are determined by the rational that they stand for. -/
theorem Canonical.ext {m n : Nat} {e f : Int} (hm : Canonical m e) (hn : Canonical n f)
    (h : (m : ℚ) * 2 ^ e = n * 2 ^ f) : m = n ∧ e = f := by
  rcases lt_trichotomy e f with hlt | rfl | hgt
  · exact absurd h (hm.lt_of_exponent_lt hn hlt).ne
  · exact ⟨by exact_mod_cast mul_right_cancel₀ (two_zpow_pos e).ne' h, rfl⟩
  · exact absurd h.symm (hn.lt_of_exponent_lt hm hgt).ne

/-! ## Cutting a mantissa -/

/-- An extended mantissa tells of a rational which integer lies below it, and on which side of the
middle between that integer and the next one it lies. -/
def Tells : ExtendedMantissa → ℚ → Prop
  | ⟨m, false, false⟩, x => x = m
  | ⟨m, false, true⟩, x => m < x ∧ x < m + 1 / 2
  | ⟨m, true, false⟩, x => x = m + 1 / 2
  | ⟨m, true, true⟩, x => m + 1 / 2 < x ∧ x < m + 1

/-- The integer of an extended mantissa is the floor. -/
theorem Tells.floor_eq {em : ExtendedMantissa} {x : ℚ} (h : Tells em x) : ⌊x⌋ = em.mantissa := by
  rw [Int.floor_eq_iff]
  obtain ⟨m, b, s⟩ := em
  cases b <;> cases s <;> simp only [Tells] at h <;> push_cast <;> constructor <;> linarith

/-- An extended mantissa is rounded to the nearest integer. -/
theorem Tells.rounded {em : ExtendedMantissa} {x : ℚ} (h : Tells em x) :
    (em.roundedMantissa : Int) = nearestEven x := by
  have hf := h.floor_eq
  obtain ⟨m, b, s⟩ := em
  simp only at hf
  rw [nearestEven, hf]
  cases b <;> cases s <;> simp only [Tells] at h <;>
    simp only [ExtendedMantissa.roundedMantissa, ExtendedMantissa.accuracy,
      Accuracy.roundToNearestEven, Int.cast_natCast]
  · rw [if_pos (by linarith)]
  · rw [if_pos (by linarith [h.2])]
  · rw [if_neg (by linarith), if_pos (by linarith)]
    push_cast
    rfl
  · rw [if_neg (by linarith [h.1]), if_neg (by linarith [h.1])]
    push_cast
    rfl

/-- One bit less tells of half the rational. -/
theorem Tells.shiftRightOne {em : ExtendedMantissa} {x : ℚ} (h : Tells em x) :
    Tells em.shiftRightOne (x / 2) := by
  obtain ⟨m, b, s⟩ := em
  have hm : (m : ℚ) = 2 * (m / 2 : Nat) + (m % 2 : Nat) := by
    exact_mod_cast (Nat.div_add_mod m 2).symm
  rcases Nat.mod_two_eq_zero_or_one m with h0 | h1
  · rw [h0] at hm
    cases b <;> cases s <;> simp only [Tells] at h <;>
      simp [ExtendedMantissa.shiftRightOne, h0, Tells] <;> push_cast at hm <;>
      first | linarith | constructor <;> linarith
  · rw [h1] at hm
    cases b <;> cases s <;> simp only [Tells] at h <;>
      simp [ExtendedMantissa.shiftRightOne, h1, Tells] <;> push_cast at hm <;>
      first | linarith | constructor <;> linarith

/-- `k` bits less tell of the rational divided by `2 ^ k`. -/
theorem Tells.shiftRight {em : ExtendedMantissa} {x : ℚ} (h : Tells em x) (k : Nat) :
    Tells (em >>> k) (x / 2 ^ k) := by
  induction k with
  | zero =>
    rw [pow_zero, div_one]
    exact h
  | succ k ih =>
    have : x / 2 ^ (k + 1) = x / 2 ^ k / 2 := by rw [pow_succ, div_div]
    rw [this]
    exact ih.shiftRightOne

/-- The exponent that a mantissa is shifted to. -/
theorem targetExponent_eq (m : Nat) (e : Int) :
    Format.binary64.targetExponent (totalExponent m e) = max (m.log2 + e - 52) (-1074) := by
  simp only [Format.targetExponent, totalExponent, Format.mantissaBits, Format.minExponent]
  norm_num
  omega

/-- The bits of the integer part of a rational tell its spacing. -/
theorem spacing_of_log2 {m : Nat} {e t : Int} {x : ℚ} (h : ⌊x / 2 ^ e⌋ = m)
    (hm : 2 ^ 52 ≤ m ∨ e ≤ -1074) (ht : t = max (m.log2 + e - 52) (-1074)) : Spacing x t := by
  rw [Int.floor_eq_iff, le_div_iff₀ (two_zpow_pos e), div_lt_iff₀ (two_zpow_pos e)] at h
  obtain ⟨hlow, hhigh⟩ := h
  constructor
  · omega
  · have hsucc : ((m : Int) : ℚ) + 1 ≤ 2 ^ ((m.log2 : Int) + 1) := by
      have : m + 1 ≤ 2 ^ (m.log2 + 1) := Nat.lt_log2_self
      exact_mod_cast this
    calc x < ((m : Int) + 1) * 2 ^ e := hhigh
      _ ≤ 2 ^ ((m.log2 : Int) + 1) * 2 ^ e := mul_le_mul_of_nonneg_right hsucc (two_zpow_pos e).le
      _ = 2 ^ ((m.log2 : Int) + 1 + e) := (zpow_add₀ (by norm_num) _ _).symm
      _ ≤ 2 ^ (t + 53) := two_zpow_le (by omega)
  · rcases eq_or_ne t (-1074) with hleast | hleast
    · exact .inl hleast
    · right
      have hpos : m ≠ 0 := by
        rintro rfl
        simp at ht hm
        omega
      have hself : (2 : ℚ) ^ (m.log2 : Int) ≤ (m : Int) := by
        exact_mod_cast Nat.log2_self_le hpos
      calc (2 : ℚ) ^ (t + 52) = 2 ^ ((m.log2 : Int) + e) := by congr 1; omega
        _ = 2 ^ (m.log2 : Int) * 2 ^ e := zpow_add₀ (by norm_num) _ _
        _ ≤ (m : Int) * 2 ^ e := mul_le_mul_of_nonneg_right hself (two_zpow_pos e).le
        _ ≤ x := hlow

theorem mantissa_ofMantissaAndAccuracy (m : Nat) (a : Accuracy) :
    (ExtendedMantissa.ofMantissaAndAccuracy m a).mantissa = m := by
  cases a with
  | exact => rfl
  | inexact o => cases o <;> rfl

/-- A mantissa of at least 53 bits, or at an exponent below the smallest one, is shifted to the
spacing of the doubles around the rational that it tells of. -/
theorem shiftToTargetExponent_tells {m : Nat} {e : Int} {a : Accuracy} {x : ℚ}
    (h : Tells (.ofMantissaAndAccuracy m a) (x / 2 ^ e)) (hm : 2 ^ 52 ≤ m ∨ e ≤ -1074) :
    Tells (shiftToTargetExponent .binary64 m e a).1
        (x / 2 ^ (shiftToTargetExponent .binary64 m e a).2) ∧
      Spacing x (shiftToTargetExponent .binary64 m e a).2 := by
  obtain ⟨k, hk⟩ : ∃ k, (max (m.log2 + e - 52) (-1074) - e).toNat = k := ⟨_, rfl⟩
  have ht : e + k = max (m.log2 + e - 52) (-1074) := by
    rcases hm with hm | he
    · have : 52 ≤ m.log2 := (Nat.le_log2 (by omega)).2 hm
      omega
    · omega
  have hfloor := h.floor_eq
  rw [mantissa_ofMantissaAndAccuracy] at hfloor
  simp only [shiftToTargetExponent, shiftToExponent, targetExponent_eq, hk]
  refine ⟨?_, spacing_of_log2 hfloor hm ht⟩
  have : x / 2 ^ (e + (k : Int)) = x / 2 ^ e / 2 ^ k := by
    rw [zpow_add₀ (by norm_num), zpow_natCast, div_div]
  rw [this]
  exact h.shiftRight k

/-- A mantissa that a double can have stays where it is. -/
theorem Canonical.shiftToTargetExponent_eq {m : Nat} {e : Int} (h : Canonical m e) :
    shiftToTargetExponent .binary64 m e .exact = (⟨m, false, false⟩, e) := by
  have hlog : m.log2 ≤ 52 := by
    rcases Nat.eq_zero_or_pos m with rfl | hp
    · simp
    · have := (Nat.log2_lt hp.ne').2 h.lt
      omega
  have hk : (max (m.log2 + e - 52) (-1074) - e).toNat = 0 := by
    have := h.low
    omega
  simp only [shiftToTargetExponent, shiftToExponent, targetExponent_eq, hk]
  simp [ExtendedMantissa.ofMantissaAndAccuracy, HShiftRight.hShiftRight, Nat.repeat]

/-- A mantissa that was rounded up to 54 bits loses the last of them, a zero. -/
theorem shiftToTargetExponent_full {e : Int} (h : -1074 ≤ e) :
    shiftToTargetExponent .binary64 (2 ^ 53) e .exact = (⟨2 ^ 52, false, false⟩, e + 1) := by
  have hk : (max (((2 ^ 53 : Nat).log2 : Int) + e - 52) (-1074) - e).toNat = 1 := by
    rw [Nat.log2_two_pow]
    omega
  simp only [shiftToTargetExponent, shiftToExponent, targetExponent_eq, hk]
  rfl

/-! ## Rounded values -/

/-- A value with a sign and of this size, as it comes out of rounding. -/
inductive Shaped (s : Sign) : ℚ → UnpackedFloat → Prop where
  | zero : Shaped s 0 (.zero s)
  | finite {m : Nat} {e : Int} (h : 0 < m) : Canonical m e → Shaped s (m * 2 ^ e) (.finite s m e h)

/-- A mantissa that is not 0 stands for a positive rational. -/
theorem mantissa_mul_pos {m : Nat} (h : 0 < m) (e : Int) : (0 : ℚ) < m * 2 ^ e :=
  mul_pos (Nat.cast_pos.2 h) (two_zpow_pos e)

theorem Shaped.nonneg {s : Sign} {r : ℚ} {u : UnpackedFloat} (h : Shaped s r u) : 0 ≤ r := by
  cases h with
  | zero => exact le_refl 0
  | finite h _ => exact (mantissa_mul_pos h _).le

/-- Rounded values of one sign and one size are the same. -/
theorem Shaped.unique {s : Sign} {r q : ℚ} {u v : UnpackedFloat} (hu : Shaped s r u)
    (hv : Shaped s q v) (h : r = q) : u = v := by
  cases hu with
  | zero =>
    cases hv with
    | zero => rfl
    | finite hp _ => exact absurd h (mantissa_mul_pos hp _).ne
  | finite hp hc =>
    cases hv with
    | zero => exact absurd h.symm (mantissa_mul_pos hp _).ne
    | finite _ hc' =>
      obtain ⟨rfl, rfl⟩ := hc.ext hc' h
      rfl

/-- What was rounded to at most 53 bits, or up to the first number of 54 bits, is shaped by one more
shift. -/
theorem shaped_of_le {s : Sign} {m : Nat} {t : Int} (hle : m ≤ 2 ^ 53) (hlow : -1074 ≤ t)
    (hfull : 2 ^ 52 ≤ m ∨ t = -1074) :
    Shaped s (m * 2 ^ t) (
      let (cut, e) := shiftToTargetExponent .binary64 m t .exact
      if h : cut.mantissa = 0 then .zero s else .finite s cut.mantissa e (Nat.pos_of_ne_zero h)) := by
  rcases Nat.lt_or_ge m (2 ^ 53) with hlt | hge
  · have hc : Canonical m t := ⟨hlt, hlow, hfull⟩
    rw [hc.shiftToTargetExponent_eq]
    simp only
    split
    · rename_i h0
      rw [h0, Nat.cast_zero, zero_mul]
      exact .zero
    · exact .finite _ hc
  · obtain rfl : m = 2 ^ 53 := le_antisymm hle hge
    have hc : Canonical (2 ^ 52) (t + 1) := ⟨by decide, by omega, .inl le_rfl⟩
    have hval : ((2 ^ 53 : Nat) : ℚ) * 2 ^ t = (2 ^ 52 : Nat) * 2 ^ (t + 1) := by
      rw [zpow_add₀ (by norm_num)]
      push_cast
      ring
    rw [shiftToTargetExponent_full hlow, hval]
    exact .finite (by decide) hc

/-- The arithmetic of doubles rounds: what is cut to at least 53 bits, or below the smallest
exponent, comes out as the rounding of the rational that the cut tells of. -/
theorem roundWithAccuracy_shaped {s : Sign} {m : Nat} {e : Int} {a : Accuracy} {x : ℚ}
    (h : Tells (.ofMantissaAndAccuracy m a) (x / 2 ^ e)) (hm : 2 ^ 52 ≤ m ∨ e ≤ -1074) :
    ∃ r, Rounds x r ∧ Shaped s r (roundWithAccuracy .binary64 s m e a) := by
  obtain ⟨htells, hspace⟩ := shiftToTargetExponent_tells h hm
  unfold roundWithAccuracy
  generalize shiftToTargetExponent .binary64 m e a = cut at htells hspace ⊢
  obtain ⟨em, t⟩ := cut
  simp only at htells hspace ⊢
  have hround := htells.rounded
  have hle : em.roundedMantissa ≤ 2 ^ 53 := by
    have := hspace.nearestEven_le
    omega
  have hfull : 2 ^ 52 ≤ em.roundedMantissa ∨ t = -1074 := by
    rcases eq_or_ne t (-1074) with ht | ht
    · exact .inr ht
    · have := hspace.le_nearestEven ht
      exact .inl (by omega)
  refine ⟨_, ⟨t, hspace, rfl⟩, ?_⟩
  rw [← hround, Int.cast_natCast]
  exact shaped_of_le hle hspace.low hfull

end LoadProbe.Number
