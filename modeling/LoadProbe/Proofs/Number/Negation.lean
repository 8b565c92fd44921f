import LoadProbe.Proofs.Number.Arithmetic

/-!
# Doubles with a sign

The negative of a double stands for the negative rational (`exact_neg`, `size_neg`), and a negative
factor makes a product negative (`size_neg_mul`). So a positive factor keeps the order of all
integers (`floor_ofInt_mul_mono`), and one that is at most 1 makes no natural greater, as long as
the natural is a double itself (`size_mul_le`), as one that is at least 1 makes none less
(`le_size_mul`). So is every natural of at most 53 bits (`rounds_of_lt`); of the greater ones that
are, those next to the end of the words are looked at (`rounds_word`, `size_word_mul_le`).
-/

namespace LoadProbe.Number

open Float.Model Float.Model.UnpackedFloat

/-! ## Negatives -/

/-- What the bits of a double can stand for is kept. -/
theorem Proper.stored_eq {u : UnpackedFloat} (h : Proper u) : stored u = u := by
  cases h with
  | notANumber => exact stored_notANumber
  | infinity s => exact stored_infinity s
  | zero s => exact stored_zero s
  | finite hp hc he => exact hc.stored_eq hp he

/-- Packed parts with the other sign stand for the negative. -/
theorem unpack_packComponents_neg (s : Sign) (e : BitVec 11) (m : BitVec 52) :
    UnpackedFloat.unpack .binary64 (packComponents .binary64 (-s) e m) =
      (UnpackedFloat.unpack .binary64 (packComponents .binary64 s e m)).neg := by
  rw [unpack_packComponents, unpack_packComponents]
  split
  · split <;> rfl
  · split
    · split <;> rfl
    · rfl

/-- Of a negative the negative is kept. -/
theorem stored_neg (u : UnpackedFloat) : stored u.neg = (stored u).neg := by
  cases u with
  | notANumber => rfl
  | infinity s => cases s <;> rfl
  | zero s => cases s <;> rfl
  | finite s m e h =>
    have hinf : stored (.infinity (-s)) = (stored (.infinity s)).neg := by cases s <;> rfl
    simp only [stored, UnpackedFloat.pack, UnpackedFloat.neg] at hinf ⊢
    split
    · exact hinf
    · split <;> exact unpack_packComponents_neg s _ _

theorem exact_neg (x : Float) : exact (-x) = (exact x).neg :=
  (stored_neg (exact x)).trans (congrArg UnpackedFloat.neg (proper_exact x).stored_eq)

/-- The negative stands for the negative rational. -/
theorem size_neg (u : UnpackedFloat) : size u.neg = -size u := by
  cases u with
  | notANumber | zero => exact neg_zero.symm
  | infinity s | finite s m e h =>
    cases s with
    | negative => exact (neg_neg _).symm
    | positive => rfl

/-! ## Products -/

theorem neg_sign_mul (s t : Sign) : -s * t = -(s * t) := by
  cases s <;> cases t <;> rfl

/-- Rounding does not look at the sign. -/
theorem roundWithAccuracy_neg (s : Sign) (m : Nat) (e : Int) (a : Accuracy) :
    roundWithAccuracy .binary64 (-s) m e a = (roundWithAccuracy .binary64 s m e a).neg := by
  unfold roundWithAccuracy
  dsimp only
  split <;> rfl

theorem mul_neg_left (u v : UnpackedFloat) :
    UnpackedFloat.mul .binary64 u.neg v = (UnpackedFloat.mul .binary64 u v).neg := by
  cases u with
  | notANumber => rfl
  | infinity s | zero s =>
    cases v <;> simp only [UnpackedFloat.mul, UnpackedFloat.neg, neg_sign_mul]
  | finite s m e h =>
    cases v <;> simp only [UnpackedFloat.mul, UnpackedFloat.neg, neg_sign_mul,
      roundWithAccuracy_neg]

/-- A negative factor makes a product negative. -/
theorem size_neg_mul (x y : Float) : size (exact (-x * y)) = -size (exact (x * y)) := by
  rw [exact_mul, exact_neg, mul_neg_left, stored_neg, size_neg, exact_mul]

theorem size_zero_mul (x : Float) : size (exact (Float.ofNat 0 * x)) = 0 := by
  have hzero : exact (Float.ofNat 0) = .zero .positive := rfl
  rw [exact_mul, hzero]
  cases exact x <;> simp only [UnpackedFloat.mul, stored_zero, stored_notANumber] <;> rfl

/-- A positive factor keeps the order of integers, also where the product is infinite. -/
theorem size_ofInt_mul_mono {x : Float} (hx : 0.0 < x) {a b : Int} (h : a ≤ b) :
    size (exact (Float.ofInt a * x)) ≤ size (exact (Float.ofInt b * x)) := by
  have hnonneg (n : Nat) : 0 ≤ size (exact (Float.ofNat n * x)) := by
    rw [← size_zero_mul x]
    exact size_mul_mono hx (Nat.zero_le n)
  have hneg (n : Nat) : size (exact (Float.ofInt (.negSucc n) * x)) =
      -size (exact (Float.ofNat (n + 1) * x)) := size_neg_mul _ x
  cases a with
  | ofNat a =>
    cases b with
    | ofNat b => exact size_mul_mono hx (Int.ofNat_le.1 h)
    | negSucc b =>
      exact absurd ((Int.natCast_nonneg a).trans h) (not_le.2 (Int.negSucc_lt_zero b))
  | negSucc a =>
    rw [hneg]
    cases b with
    | ofNat b => exact (neg_nonpos.2 (hnonneg _)).trans (hnonneg b)
    | negSucc b =>
      rw [hneg]
      rw [Int.negSucc_eq, Int.negSucc_eq] at h
      exact neg_le_neg (size_mul_mono hx (by omega))

/-- The same after the products are rounded down to words. -/
theorem floor_ofInt_mul_mono {x : Float} (hx : 0.0 < x) {a b : Int} (h : a ≤ b) :
    floorIn signed64 (Float.ofInt a * x) ≤ floorIn signed64 (Float.ofInt b * x) := by
  rw [floorIn_eq, floorIn_eq]
  exact clamp_mono signed64 (Int.floor_le_floor (size_ofInt_mul_mono hx h))

/-! ## Factors up to 1 and from 1 on -/

/-- A natural of at most 53 bits is a double itself. -/
theorem Rounds.eq_of_lt {n : Nat} {r : ℚ} (h : Rounds n r) (hn : n < 2 ^ 53) : r = n := by
  obtain ⟨t, ht, rfl⟩ := h
  have htop : t ≤ 0 := by
    by_contra hpos
    have hfull : (2 : ℚ) ^ (t + 52) ≤ n := ht.full.resolve_left (by omega)
    have hpow : (2 : ℚ) ^ (53 : Int) ≤ 2 ^ (t + 52) := two_zpow_le (by omega)
    have hlt : (n : ℚ) < 2 ^ (53 : Int) := by exact_mod_cast hn
    linarith
  obtain ⟨k, rfl⟩ : ∃ k : Nat, t = -k := ⟨t.natAbs, by omega⟩
  have hunits : (n : ℚ) / 2 ^ (-k : Int) = (n * 2 ^ k : Int) := by
    rw [zpow_neg, zpow_natCast, div_inv_eq_mul]
    push_cast
    rfl
  rw [hunits, nearestEven_intCast, ← hunits, div_mul_cancel₀ _ (two_zpow_pos _).ne']

theorem rounds_of_lt {n : Nat} (hn : n < 2 ^ 53) : Rounds n n := by
  obtain ⟨r, hr, -⟩ := exact_ofNat_of_lt (show n < 2 ^ 64 by omega)
  rwa [hr.eq_of_lt hn] at hr

/-- The double of a natural that is not rounded. -/
theorem shaped_ofNat {n : Nat} (hn : Rounds n n) (hlt : n < 2 ^ 64) :
    Shaped .positive n (exact (Float.ofNat n)) := by
  obtain ⟨r, hr, hu⟩ := exact_ofNat_of_lt hlt
  rwa [hr.unique hn] at hu

theorem size_one : size (exact 1.0) = 1 := by
  rw [exact_one, size]
  norm_num

/-- The greatest double below 1. -/
theorem Canonical.belowOne : Canonical (2 ^ 53 - 1) (-53) :=
  ⟨by decide, by decide, .inl (by decide)⟩

/-- A positive factor that is not at least 1 is at most the greatest double below 1. -/
theorem Shaped.le_belowOne {r : ℚ} {u : UnpackedFloat} (h : Shaped .positive r u) (hlt : r < 1) :
    r ≤ (2 ^ 53 - 1 : Nat) * 2 ^ (-53 : Int) := by
  have hone : (1 : ℚ) = (2 ^ 52 : Nat) * 2 ^ (-52 : Int) := by norm_num
  cases h with
  | zero => positivity
  | @finite m e hm hc =>
    rcases lt_trichotomy e (-53) with hlow | rfl | hhigh
    · exact (hc.lt_of_exponent_lt .belowOne hlow).le
    · exact mul_le_mul_of_nonneg_right (Nat.cast_le.2 (Nat.le_pred_of_lt hc.lt)) (two_zpow_pos _).le
    · have hfull : 2 ^ 52 ≤ m := hc.full.resolve_right (by omega)
      have hge : (1 : ℚ) ≤ m * 2 ^ e := by
        rw [hone]
        exact mul_le_mul (Nat.cast_le.2 hfull) (two_zpow_le (by omega)) (two_zpow_pos _).le
          (Nat.cast_nonneg m)
      exact absurd hlt (not_lt.2 hge)

/-- What is scaled by a positive factor that is not at least 1. -/
theorem exact_of_lt_one {x : Float} (hx : 0.0 < x) (h : size (exact x) ≤ 1) :
    ∃ p, 0 < p ∧ p ≤ 1 ∧ Shaped .positive p (exact x) := by
  rcases exact_of_pos hx with hinf | ⟨p, hp, hs⟩
  · have hlarge : (1 : ℚ) < beyond := by
      have : (2 : ℚ) ^ (1 : Int) ≤ beyond := two_zpow_le (by decide)
      linarith
    rw [hinf] at h
    exact absurd h (not_le.2 hlarge)
  · exact ⟨p, hp, hs.size_eq ▸ h, hs⟩

/-- A factor that is at most 1 makes no natural greater that is a double. -/
theorem size_mul_le {x : Float} (hx : 0.0 < x) (hle : x ≤ 1.0) {n : Nat} (hn : Rounds n n)
    (hlt : n < 2 ^ 64) : size (exact (Float.ofNat n * x)) ≤ n := by
  obtain ⟨p, -, hp, hs⟩ := exact_of_lt_one hx (size_one ▸ (le_iff.1 hle).2.2)
  obtain ⟨q, hq, hw⟩ := (shaped_ofNat hn hlt).mul hs
  have hqn : q ≤ n := hq.mono hn (mul_le_of_le_one_right (Nat.cast_nonneg n) hp)
  rw [exact_mul, hw.size_stored]
  exact (min_le_left _ _).trans hqn

/-- A factor that is at least 1 makes no natural less that is a double, also where the factor is
infinite. -/
theorem le_size_mul {x : Float} (hx : 0.0 < x) (hle : 1.0 ≤ x) {n : Nat} (hn : Rounds n n)
    (hlt : n < 2 ^ 64) : n ≤ size (exact (Float.ofNat n * x)) := by
  have hlarge : (n : ℚ) ≤ beyond := (hn.lt_beyond hlt).le
  rcases exact_of_pos hx with hinf | ⟨p, hp, hs⟩
  · rcases Nat.eq_zero_or_pos n with rfl | hpos
    · exact (size_zero_mul x).ge
    · exact hlarge.trans_eq (size_mul_infinity hinf hpos).symm
  · have hsize : 1 ≤ size (exact x) := size_one ▸ (le_iff.1 hle).2.2
    rw [hs.size_eq] at hsize
    obtain ⟨q, hq, hw⟩ := (shaped_ofNat hn hlt).mul hs
    have hnq : n ≤ q := hn.mono hq (le_mul_of_one_le_right (Nat.cast_nonneg n) hsize)
    rw [exact_mul, hw.size_stored]
    exact le_min hnq hlarge

/-- The first power of 2 beyond the words, and the double before it. -/
theorem rounds_word : Rounds (2 ^ 63 : Nat) (2 ^ 63 : Nat) ∧
    Rounds (2 ^ 63 - 1024 : Nat) (2 ^ 63 - 1024 : Nat) := by
  have hword : Canonical (2 ^ 52) 11 := ⟨by decide, by decide, .inl le_rfl⟩
  have hbelow : Canonical (2 ^ 53 - 1) 10 := ⟨by decide, by decide, .inl (by decide)⟩
  have hword' : ((2 ^ 52 : Nat) * 2 ^ (11 : Int) : ℚ) = (2 ^ 63 : Nat) := by norm_num
  have hbelow' : ((2 ^ 53 - 1 : Nat) * 2 ^ (10 : Int) : ℚ) = (2 ^ 63 - 1024 : Nat) := by norm_num
  exact ⟨hword' ▸ hword.rounds, hbelow' ▸ hbelow.rounds⟩

/-- Any other factor takes it to the double before it at most. -/
theorem size_word_mul_le {x : Float} (hx : 0.0 < x) (h : ¬1.0 ≤ x) :
    size (exact (Float.ofNat (2 ^ 63) * x)) ≤ (2 ^ 63 - 1024 : Nat) := by
  have hlt : size (exact x) < 1 := by
    by_contra hge
    refine h (le_iff.2 ⟨?_, (lt_iff.1 hx).2.1, size_one.trans_le (not_lt.1 hge)⟩)
    rw [exact_one]
    exact nofun
  obtain ⟨p, -, -, hs⟩ := exact_of_lt_one hx hlt.le
  have hp := hs.le_belowOne (hs.size_eq ▸ hlt)
  obtain ⟨q, hq, hw⟩ := (shaped_ofNat rounds_word.1 (by decide)).mul hs
  have hqn : q ≤ (2 ^ 63 - 1024 : Nat) := by
    refine hq.mono rounds_word.2 ?_
    calc ((2 ^ 63 : Nat) : ℚ) * p ≤ (2 ^ 63 : Nat) * ((2 ^ 53 - 1 : Nat) * 2 ^ (-53 : Int)) :=
          mul_le_mul_of_nonneg_left hp (Nat.cast_nonneg _)
      _ = (2 ^ 63 - 1024 : Nat) := by norm_num
  rw [exact_mul, hw.size_stored]
  exact (min_le_left _ _).trans hqn

/-- A factor takes the negative of a natural to the negative of what it takes the natural to. -/
theorem size_ofInt_neg_mul (x : Float) (n : Nat) :
    size (exact (Float.ofInt (-n) * x)) = -size (exact (Float.ofNat n * x)) := by
  cases n with
  | zero =>
    rw [size_zero_mul, neg_zero]
    exact size_zero_mul x
  | succ n => exact size_neg_mul _ x

/-! ## Rounding down to words -/

/-- The floor of a double is at least any integer of the word that the double is at least. -/
theorem le_floorIn {x : Float} {k : Int} (hk : k ≤ signed64.hi) (h : k ≤ size (exact x)) :
    k ≤ floorIn signed64 x := by
  have hfloor : k ≤ ⌊size (exact x)⌋ := Int.le_floor.2 h
  rw [floorIn_eq]
  simp only [Range.clamp]
  omega

/-- The floor of a double is at most any integer of the word that the double is at most. -/
theorem floorIn_le {x : Float} {k : Int} (hk : signed64.lo ≤ k) (h : size (exact x) ≤ k) :
    floorIn signed64 x ≤ k := by
  have hfloor : ⌊size (exact x)⌋ ≤ k := by
    rw [Int.floor_le_iff]
    linarith
  rw [floorIn_eq]
  simp only [Range.clamp]
  omega

end LoadProbe.Number
