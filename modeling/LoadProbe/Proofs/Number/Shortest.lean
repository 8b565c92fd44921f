import LoadProbe.Number.Shortest
import LoadProbe.Proofs.Number.Decimal

/-!
# The fewest digits read back

The rationals that are rounded to a double reach half way to its neighbours
(`Canonical.rounds_near`, `Canonical.rounds_narrow`), and this is what a cut of its expansion is
checked for (`Expansion.near_rounds`). Every step of the search keeps the check, so the decimal that
is found rounds to the double (`Expansion.shortest_rounds`).
-/

namespace LoadProbe.Number

/-! ## Half way to the neighbours -/

/-- The integer within one half of a rational, the even one of two. -/
theorem nearestEven_eq {x : ℚ} {n : Int} (h : |x - n| ≤ 1 / 2)
    (htie : |x - n| = 1 / 2 → n % 2 = 0) : nearestEven x = n := by
  rw [abs_le] at h
  rcases le_or_gt (n : ℚ) x with hle | hlt
  · have hfloor : ⌊x⌋ = n := Int.floor_eq_iff.2 ⟨hle, by linarith [h.2]⟩
    rw [abs_of_nonneg (sub_nonneg.2 hle)] at htie
    rw [nearestEven, hfloor]
    split
    · rfl
    · split
      · next heq => rw [htie heq, add_zero]
      · next hne => exact absurd (lt_of_le_of_ne h.2 hne) ‹_›
  · have hfloor : ⌊x⌋ = n - 1 := by
      rw [Int.floor_eq_iff]
      push_cast
      constructor <;> linarith [h.1]
    rw [abs_of_neg (sub_neg.2 hlt)] at htie
    rw [nearestEven, hfloor]
    push_cast
    split
    · next hsmall => linarith [h.1]
    · split
      · next heq =>
        have := htie (by linarith)
        omega
      · omega

variable {m : Nat} {e : Int} {q : ℚ}

/-- A multiple of a power of two that has the size of a mantissa is rounded to an integer multiple
of this power. -/
theorem rounds_scaled {n : Int} (hlow : -1074 ≤ e) (hlt : q < 2 ^ 53)
    (hfull : e = -1074 ∨ 2 ^ 52 ≤ q) (hn : nearestEven q = n) : Rounds (q * 2 ^ e) (n * 2 ^ e) := by
  have hpos := two_zpow_pos e
  refine ⟨e, ⟨hlow, ?_, hfull.imp_right fun hle => ?_⟩, ?_⟩
  · have hpow : (2 : ℚ) ^ (e + 53) = (2 ^ 53 : Int) * 2 ^ e := two_zpow_add_nat e 53
    rw [hpow]
    exact mul_lt_mul_of_pos_right (by exact_mod_cast hlt) hpos
  · have hpow : (2 : ℚ) ^ (e + 52) = (2 ^ 52 : Int) * 2 ^ e := two_zpow_add_nat e 52
    rw [hpow]
    exact mul_le_mul_of_nonneg_right (by exact_mod_cast hle) hpos.le
  · rw [mul_div_cancel_right₀ _ hpos.ne', hn]

/-- What lies half way to the neighbours of a double is rounded to it. Below the least mantissa of a
size the neighbours are nearer. -/
theorem Canonical.rounds_near (hc : Canonical m e) (h : |q - m| ≤ 1 / 2)
    (htie : |q - m| = 1 / 2 → m % 2 = 0) (hwide : (m : ℚ) ≤ q ∨ m ≠ 2 ^ 52 ∨ e = -1074) :
    Rounds (q * 2 ^ e) (m * 2 ^ e) := by
  have hnearest : nearestEven q = m := nearestEven_eq (by exact_mod_cast h) fun heq => by
    have := htie (by exact_mod_cast heq)
    omega
  rw [abs_le] at h
  have hlt : (m : ℚ) + 1 ≤ 2 ^ 53 := by exact_mod_cast hc.lt
  refine rounds_scaled hc.low (by linarith [h.2]) ?_ hnearest
  rcases eq_or_ne e (-1074) with hleast | hleast
  · exact .inl hleast
  · right
    have hfull : 2 ^ 52 ≤ m := hc.full.resolve_right hleast
    rcases hwide with hle | hne | heq
    · exact le_trans (by exact_mod_cast hfull) hle
    · have : (2 : ℚ) ^ 52 + 1 ≤ m := by exact_mod_cast lt_of_le_of_ne hfull (Ne.symm hne)
      linarith [h.1]
    · exact absurd heq hleast

/-- Below the least mantissa of a size the doubles are twice as close. -/
theorem Canonical.rounds_narrow (he : -1074 < e) (h : (2 : ℚ) ^ 52 - 1 / 4 ≤ q)
    (hlt : q < 2 ^ 52) : Rounds (q * 2 ^ e) (2 ^ 52 * 2 ^ e) := by
  have hnearest : nearestEven (2 * q) = 2 ^ 53 := by
    refine nearestEven_eq ?_ fun _ => by decide
    push_cast
    rw [abs_le]
    constructor <;> linarith
  have hrounds := rounds_scaled (e := e - 1) (by omega) (by linarith) (.inr (by linarith)) hnearest
  have hhalf : (2 : ℚ) ^ e = 2 * 2 ^ (e - 1) := by
    rw [zpow_sub₀ (by norm_num), zpow_one]
    ring
  rw [hhalf, ← mul_assoc, ← mul_assoc, mul_comm q]
  exact_mod_cast hrounds

/-! ## The search -/

namespace Expansion

theorem gap_pos (m : Nat) (e : Int) : 0 < (ofBinary m e).gap := by
  show 0 < if 0 ≤ e then Nat.pow 2 e.toNat else Nat.pow 5 (-e).toNat
  split <;> exact Nat.pow_pos (by decide)

/-- The gap is the unit of the double. -/
theorem gap_scaled (m : Nat) (e : Int) :
    ((ofBinary m e).gap : ℚ) * 10 ^ (ofBinary m e).exponent = 2 ^ e := by
  show ((if 0 ≤ e then Nat.pow 2 e.toNat else Nat.pow 5 (-e).toNat : Nat) : ℚ) *
    10 ^ min e 0 = 2 ^ e
  split
  · next he =>
    obtain ⟨k, rfl⟩ := Int.eq_ofNat_of_zero_le he
    rw [min_eq_right he, zpow_zero, mul_one, Int.toNat_natCast, zpow_natCast]
    exact Nat.cast_pow 2 k
  · next he =>
    obtain ⟨k, hk⟩ := Int.eq_ofNat_of_zero_le (show 0 ≤ -e by omega)
    obtain rfl : e = -k := by omega
    rw [min_eq_left (by omega), neg_neg, Int.toNat_natCast, zpow_neg, zpow_neg, zpow_natCast,
      zpow_natCast, show (10 : ℚ) = 5 * 2 by norm_num, mul_pow, Nat.pow_eq]
    push_cast
    field_simp

/-- The decimal of so many units, in units of the double. -/
theorem scaled_eq (m : Nat) (e : Int) (c : Nat) :
    (c : ℚ) * 10 ^ (ofBinary m e).exponent = c / (ofBinary m e).gap * 2 ^ e := by
  have := Nat.cast_pos (α := ℚ).2 (gap_pos m e)
  rw [← gap_scaled m e]
  field_simp

/-- How far a decimal is from the double, against the half of what the neighbours leave. -/
def distance (x : Expansion) (c : Nat) : Nat :=
  if x.units ≤ c then 2 * (c - x.units) else (if x.narrow then 4 else 2) * (x.units - c)

theorem near_iff {x : Expansion} {c : Nat} :
    x.near c = true ↔ x.distance c ≤ x.gap ∧ (x.distance c = x.gap → x.even = true) := by
  show (if x.even then decide (x.distance c ≤ x.gap) else decide (x.distance c < x.gap)) = true ↔ _
  cases x.even with
  | true => simp
  | false => simp [lt_iff_le_and_ne]

/-- So many parts of a unit as a share of it. -/
theorem share_le {k d g : Nat} (hg : 0 < g) (hk : 0 < k) (h : k * d ≤ g) : (d : ℚ) / g ≤ 1 / k := by
  rw [div_le_div_iff₀ (Nat.cast_pos.2 hg) (Nat.cast_pos.2 hk)]
  exact_mod_cast (by rwa [one_mul, mul_comm] : d * k ≤ 1 * g)

/-- A rational that is so many parts of the gap away from a double. -/
theorem rounds_parts (hc : Canonical m e) {d g : Nat} (hg : 0 < g) (hq : |q - m| = d / g)
    (hle : 2 * d ≤ g) (htie : 2 * d = g → m % 2 = 0)
    (hwide : (m : ℚ) ≤ q ∨ m ≠ 2 ^ 52 ∨ e = -1074) : Rounds (q * 2 ^ e) (m * 2 ^ e) := by
  refine hc.rounds_near (hq.trans_le (share_le hg two_pos hle)) (fun hhalf => htie ?_) hwide
  rw [hq, div_eq_div_iff (Nat.cast_pos.2 hg).ne' two_ne_zero] at hhalf
  exact_mod_cast (by linarith : (2 : ℚ) * d = g)

/-- What the check accepts rounds to the double. -/
theorem near_rounds (hc : Canonical m e) {c : Nat} (h : (ofBinary m e).near c = true) :
    Rounds (c * 10 ^ (ofBinary m e).exponent) (m * 2 ^ e) := by
  rw [scaled_eq]
  obtain ⟨hle, htie⟩ := near_iff.1 h
  have heven : (ofBinary m e).even = true ↔ m % 2 = 0 := beq_iff_eq
  have hnarrow : (ofBinary m e).narrow = true ↔ m = 2 ^ 52 ∧ -1074 < e := by
    simp [ofBinary]
  have hg := gap_pos m e
  have hunits : (ofBinary m e).units = m * (ofBinary m e).gap := rfl
  rw [heven, distance, hunits] at htie
  rw [distance, hunits] at hle
  generalize (ofBinary m e).gap = g at hle htie hg ⊢
  generalize (ofBinary m e).narrow = narrow at hle htie hnarrow
  have hgap : (0 : ℚ) < g := Nat.cast_pos.2 hg
  have hpos : ∀ d : Nat, (0 : ℚ) ≤ (d : ℚ) / g := fun d => div_nonneg (Nat.cast_nonneg d) hgap.le
  rcases le_or_gt (m * g) c with habove | hbelow
  · obtain ⟨d, rfl⟩ := Nat.exists_eq_add_of_le habove
    rw [if_pos habove, Nat.add_sub_cancel_left] at hle htie
    have hq : ((m * g + d : Nat) : ℚ) / g = m + d / g := by
      push_cast
      rw [add_div, mul_div_cancel_right₀ _ hgap.ne']
    rw [hq]
    refine rounds_parts hc hg ?_ hle htie (.inl (le_add_of_nonneg_right (hpos d)))
    rw [add_sub_cancel_left, abs_of_nonneg (hpos d)]
  · obtain ⟨d, hd⟩ := Nat.exists_eq_add_of_le hbelow.le
    rw [if_neg (not_le.2 hbelow), hd, Nat.add_sub_cancel_left] at hle htie
    have hq : (c : ℚ) / g = m - d / g := by
      rw [eq_sub_iff_add_eq, ← add_div, div_eq_iff hgap.ne']
      exact_mod_cast hd.symm
    rw [hq]
    cases hn : narrow with
    | false =>
      rw [hn] at hle htie hnarrow
      have hwide : m ≠ 2 ^ 52 ∨ e = -1074 := by
        by_contra hnot
        rw [not_or, not_not] at hnot
        exact absurd (hnarrow.2 ⟨hnot.1, lt_of_le_of_ne hc.low (Ne.symm hnot.2)⟩) nofun
      refine rounds_parts hc hg ?_ hle htie (.inr hwide)
      rw [sub_sub_cancel_left, abs_neg, abs_of_nonneg (hpos d)]
    | true =>
      obtain ⟨rfl, he⟩ := hnarrow.1 hn
      rw [hn] at hle
      have hquarter := share_le hg (show 0 < 4 by decide) hle
      have hdpos : (0 : ℚ) < d / g := div_pos (Nat.cast_pos.2 (by omega)) hgap
      push_cast at hquarter ⊢
      exact Canonical.rounds_narrow he (by linarith) (by linarith)

/-- A cut that is taken reads back: it is one of the two neighbours, and was checked. -/
theorem near_of_cut {x : Expansion} {tie : Tie} {j a : Nat} (h : x.cut tie j = some a) :
    x.near (a * 10 ^ j) = true := by
  generalize hbelow : x.near (x.units / Nat.pow 10 j * Nat.pow 10 j) = below
  generalize habove : x.near ((x.units / Nat.pow 10 j + 1) * Nat.pow 10 j) = above
  simp only [cut, hbelow, habove] at h
  cases below <;> cases above
  · cases h
  · obtain rfl := Option.some.inj h
    exact habove
  · obtain rfl := Option.some.inj h
    exact hbelow
  · have hneighbour : a = x.units / Nat.pow 10 j ∨ a = x.units / Nat.pow 10 j + 1 := by
      simp only [Bool.and_self, if_true] at h
      split at h
      · exact .inl (Option.some.inj h).symm
      · split at h
        · exact .inr (Option.some.inj h).symm
        · cases tie with
          | toEven =>
            obtain rfl := Option.some.inj h
            split
            · exact .inl rfl
            · exact .inr rfl
          | away => exact .inr (Option.some.inj h).symm
    rcases hneighbour with rfl | rfl
    · exact hbelow
    · exact habove

/-- The whole expansion reads back. -/
theorem near_units (m : Nat) (e : Int) : (ofBinary m e).near (ofBinary m e).units = true := by
  have hpos := gap_pos m e
  rw [near_iff, distance, if_pos le_rfl, Nat.sub_self, mul_zero]
  exact ⟨Nat.zero_le _, fun h => absurd h hpos.ne⟩

/-- The first cut that is taken reads back, as so many units. -/
theorem near_of_firstCut {x : Expansion} (hx : x.near x.units = true) (tie : Tie) (j : Nat) :
    ∃ k : Nat, (x.firstCut tie j).exponent = x.exponent + k ∧
      x.near ((x.firstCut tie j).digits * 10 ^ k) = true := by
  induction j with
  | zero => exact ⟨0, (add_zero _).symm, by rwa [pow_zero, mul_one]⟩
  | succ j ih =>
    rw [firstCut]
    split
    · next a hcut => exact ⟨j + 1, rfl, near_of_cut hcut⟩
    · exact ih

end Expansion

/-- The rational that a decimal stands for. -/
def Decimal.size (d : Decimal) : ℚ :=
  d.digits * 10 ^ d.exponent

theorem Decimal.size_trim (d : Decimal) (fuel : Nat) : (d.trim fuel).size = d.size := by
  induction fuel generalizing d with
  | zero => rfl
  | succ fuel ih =>
    rw [trim]
    split
    · next h =>
      rw [ih]
      obtain ⟨k, hk⟩ := Nat.dvd_of_mod_eq_zero h.2
      have hdigits : d.digits / 10 = k := by omega
      rw [size, size, hdigits, hk, zpow_add₀ (by norm_num)]
      push_cast
      ring
    · rfl

/-- The decimal of the fewest digits rounds to the double. -/
theorem Expansion.shortest_rounds (hc : Canonical m e) (tie : Tie) :
    Rounds ((ofBinary m e).shortest tie).size (m * 2 ^ e) := by
  obtain ⟨k, hexponent, hnear⟩ :=
    near_of_firstCut (near_units m e) tie (Nat.repr (ofBinary m e).units).length
  have hrounds := near_rounds hc hnear
  rw [shortest, Decimal.size_trim, Decimal.size, hexponent, zpow_add₀ (by norm_num), zpow_natCast]
  push_cast at hrounds
  rwa [mul_assoc, mul_comm (10 ^ k : ℚ)] at hrounds

end LoadProbe.Number
