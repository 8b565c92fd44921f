import LoadProbe.Proofs.Number.Rounding

/-!
# Doubles as rationals

`stored u` is what the bits of a double keep of an exact value: a rounded value itself, unless it
lies beyond the greatest double, where an infinity is kept. The arithmetic of doubles computes an
exact value, rounds it and stores it.
-/

namespace LoadProbe.Number

open Float.Model Float.Model.UnpackedFloat

/-! ## Bits -/

/-- What the bits of a double can stand for. -/
inductive Proper : UnpackedFloat → Prop where
  | notANumber : Proper .notANumber
  | infinity (s : Sign) : Proper (.infinity s)
  | zero (s : Sign) : Proper (.zero s)
  | finite {s : Sign} {m : Nat} {e : Int} (h : 0 < m) : Canonical m e → e ≤ 971 →
      Proper (.finite s m e h)

/-- What the bits of a double keep of an exact value. -/
def stored (u : UnpackedFloat) : UnpackedFloat :=
  UnpackedFloat.unpack .binary64 (UnpackedFloat.pack .binary64 u)

/-- The leading bit of a mantissa is not among its bits. -/
theorem toNat_append_one (m : BitVec 52) : (1#1 ++ m).toNat = 2 ^ 52 + m.toNat := by
  rw [BitVec.toNat_append, ← Nat.shiftLeft_add_eq_or_of_lt m.isLt]
  rfl

/-- What bits stand for, by their three parts. -/
theorem unpack_eq {b : BitVec 64} {s : Sign} {e : BitVec 11} {m : BitVec 52}
    (hs : Sign.ofBitVec (@unpackSign .binary64 b) = s)
    (he : @unpackExponent .binary64 b = e)
    (hm : @unpackMantissa .binary64 b = m) :
    UnpackedFloat.unpack .binary64 b =
      if e = -1#_ then (if m = 0#_ then .infinity s else .notANumber)
      else if e = 0#_ then
        (if h : m = 0#_ then .zero s
        else .finite s m.toNat (-1074) (by simpa [BitVec.toNat_pos, BitVec.pos_iff_ne_zero]))
      else .finite s (1#1 ++ m).toNat (e.toNat - 1075) (by rw [toNat_append_one]; omega) := by
  subst hs he hm
  simp only [UnpackedFloat.unpack]
  split
  · rfl
  · split
    · rename_i he
      simp only [he]
      rfl
    · rfl

/-- What packed parts stand for. -/
theorem unpack_packComponents (s : Sign) (e : BitVec 11) (m : BitVec 52) :
    UnpackedFloat.unpack .binary64 (packComponents .binary64 s e m) =
      if e = -1#_ then (if m = 0#_ then .infinity s else .notANumber)
      else if e = 0#_ then
        (if h : m = 0#_ then .zero s
        else .finite s m.toNat (-1074) (by simpa [BitVec.toNat_pos, BitVec.pos_iff_ne_zero]))
      else .finite s (1#1 ++ m).toNat (e.toNat - 1075) (by rw [toNat_append_one]; omega) := by
  refine unpack_eq ?_ unpackExponent_packComponents unpackMantissa_packComponents
  rw [unpackSign_packComponents, Sign.ofBitVec_toBitVec]

theorem stored_zero (s : Sign) : stored (.zero s) = .zero s := by
  cases s <;> rfl

theorem stored_infinity (s : Sign) : stored (.infinity s) = .infinity s := by
  cases s <;> rfl

theorem stored_notANumber : stored .notANumber = .notANumber :=
  rfl

/-- The stored exponent of what a double can be. -/
theorem biasedExponent_eq {e : Int} {b : Nat} (hb : (b : Int) = e + 1075) :
    (e + (Format.binary64.exponentBias : Nat) + (52 : Nat)).toNat = b := by
  have : Format.binary64.exponentBias = 1023 := rfl
  omega

/-- Bits of an exponent that are neither all 0 nor all 1. -/
theorem ofNat_exponent {b : Nat} (h0 : 0 < b) (h : b < 2047) :
    (BitVec.ofNat 11 b).toNat = b ∧ BitVec.ofNat 11 b ≠ -1#_ ∧ BitVec.ofNat 11 b ≠ 0#_ := by
  have hb : (BitVec.ofNat 11 b).toNat = b := by
    rw [BitVec.toNat_ofNat, Nat.mod_eq_of_lt (by omega)]
  refine ⟨hb, fun h => ?_, fun h => ?_⟩
  · have : (BitVec.ofNat 11 b).toNat = 2047 := by rw [h]; rfl
    omega
  · have : (BitVec.ofNat 11 b).toNat = 0 := by rw [h]; rfl
    omega

/-- What a double can be is kept, unless its exponent is too great. -/
theorem Canonical.stored_eq {s : Sign} {m : Nat} {e : Int} (hc : Canonical m e) (h : 0 < m)
    (he : e ≤ 971) : stored (.finite s m e h) = .finite s m e h := by
  have hlow := hc.low
  have hlt := hc.lt
  obtain ⟨b, hb⟩ : ∃ b : Nat, (b : Int) = e + 1075 := ⟨(e + 1075).toNat, by omega⟩
  simp only [stored, UnpackedFloat.pack]
  rw [biasedExponent_eq hb, if_neg (by simp; omega)]
  rcases Nat.lt_or_ge m (2 ^ 52) with hm | hm
  · have hlog : m.log2 < 52 := (Nat.log2_lt h.ne').2 hm
    have hmant : (BitVec.ofNat 52 m).toNat = m := by
      rw [BitVec.toNat_ofNat, Nat.mod_eq_of_lt hm]
    have hne : BitVec.ofNat 52 m ≠ 0#_ := fun h0 => by
      have : (BitVec.ofNat 52 m).toNat = 0 := by rw [h0]; rfl
      omega
    rw [if_neg (by simp [Format.mantissaBits]; omega), unpack_packComponents, if_neg (by decide),
      if_pos rfl, dif_neg hne]
    have : e = -1074 := hc.full.resolve_left (by omega)
    simp only [hmant, this]
  · have hlog : m.log2 = 52 := (Nat.log2_eq_iff h.ne').2 ⟨hm, hlt⟩
    obtain ⟨hexp, hones, hzero⟩ := ofNat_exponent (b := b) (by omega) (by omega)
    have hmant : (1#1 ++ BitVec.ofNat 52 m).toNat = m := by
      rw [toNat_append_one, BitVec.toNat_ofNat]
      omega
    rw [if_pos (by simp [Format.mantissaBits, hlog]), unpack_packComponents, if_neg hones,
      if_neg hzero]
    simp only [hmant, hexp]
    congr 1
    omega

/-- Of what lies beyond the greatest double an infinity is kept. -/
theorem stored_of_lt_exponent {s : Sign} {m : Nat} {e : Int} (h : 0 < m) (he : 971 < e) :
    stored (.finite s m e h) = .infinity s := by
  obtain ⟨b, hb⟩ : ∃ b : Nat, (b : Int) = e + 1075 := ⟨(e + 1075).toNat, by omega⟩
  rw [← stored_infinity]
  simp only [stored, UnpackedFloat.pack]
  rw [biasedExponent_eq hb, if_pos (by simp; omega)]

/-- The bits of a double stand for something proper. -/
theorem proper_exact (x : Float) : Proper (exact x) := by
  obtain ⟨m, hm⟩ : ∃ m, @unpackMantissa .binary64 x.toBits.toBitVec = m := ⟨_, rfl⟩
  obtain ⟨e, he⟩ : ∃ e, @unpackExponent .binary64 x.toBits.toBitVec = e := ⟨_, rfl⟩
  have hlt : m.toNat < 2 ^ 52 := m.isLt
  have hexp : e.toNat < 2 ^ 11 := e.isLt
  rw [exact, unpack_eq rfl he hm]
  split
  · split
    · exact .infinity _
    · exact .notANumber
  · rename_i hones
    split
    · split
      · exact .zero _
      · exact .finite _ ⟨by omega, by omega, .inr rfl⟩ (by omega)
    · rename_i hzero
      have h0 : e.toNat ≠ 0 := fun h => hzero (BitVec.eq_of_toNat_eq h)
      have h1 : e.toNat ≠ 2047 := fun h => hones (BitVec.eq_of_toNat_eq h)
      have := toNat_append_one m
      exact .finite _ ⟨by omega, by omega, .inl (by omega)⟩ (by omega)

/-! ## Sizes -/

/-- Where an infinity is put among the rationals, right behind the greatest double. -/
def beyond : ℚ := 2 ^ (1024 : Int)

theorem beyond_pos : 0 < beyond :=
  two_zpow_pos 1024

/-- The rational that a double stands for. -/
def size : UnpackedFloat → ℚ
  | .notANumber => 0
  | .zero _ => 0
  | .infinity .positive => beyond
  | .infinity .negative => -beyond
  | .finite .positive m e _ => m * 2 ^ e
  | .finite .negative m e _ => -(m * 2 ^ e)

/-- What can be kept is smaller than an infinity. -/
theorem Canonical.lt_beyond {m : Nat} {e : Int} (hc : Canonical m e) (he : e ≤ 971) :
    (m : ℚ) * 2 ^ e < beyond :=
  hc.spacing.lt.trans_le (two_zpow_le (by omega))

/-- What cannot be kept is as great as an infinity. -/
theorem Canonical.beyond_le {m : Nat} {e : Int} (hc : Canonical m e) (he : 971 < e) :
    beyond ≤ (m : ℚ) * 2 ^ e :=
  (two_zpow_le (by omega)).trans (hc.spacing.full.resolve_left (by omega))

/-- Of a rounded value its size is kept, or an infinity. -/
theorem Shaped.stored_eq {s : Sign} {r : ℚ} {u : UnpackedFloat} (h : Shaped s r u) :
    stored u = if r < beyond then u else .infinity s := by
  cases h with
  | zero => rw [stored_zero, if_pos beyond_pos]
  | @finite m e hp hc =>
    rcases le_or_gt e 971 with he | he
    · rw [hc.stored_eq hp he, if_pos (hc.lt_beyond he)]
    · rw [stored_of_lt_exponent hp he, if_neg (not_lt.2 (hc.beyond_le he))]

theorem Shaped.size_eq {r : ℚ} {u : UnpackedFloat} (h : Shaped .positive r u) : size u = r := by
  cases h <;> rfl

/-- The size of what is kept of a rounded value. -/
theorem Shaped.size_stored {r : ℚ} {u : UnpackedFloat} (h : Shaped .positive r u) :
    size (stored u) = min r beyond := by
  rw [h.stored_eq]
  split
  · rename_i hr
    rw [h.size_eq, min_eq_left hr.le]
  · rename_i hr
    rw [min_eq_right (not_lt.1 hr)]
    rfl

/-- No double is greater than an infinity. -/
theorem Proper.abs_size_le {u : UnpackedFloat} (h : Proper u) : |size u| ≤ beyond := by
  cases h with
  | notANumber | zero =>
    rw [size, abs_zero]
    exact beyond_pos.le
  | infinity s => cases s <;> simp only [size, abs_neg, abs_of_pos beyond_pos, le_refl]
  | @finite s m e hp hc he =>
    have hlt := (hc.lt_beyond he).le
    cases s <;> simp only [size, abs_neg, abs_of_pos (mantissa_mul_pos hp e), hlt]

/-! ## The order of doubles -/

/-- The exponents of what doubles can be are compared first, and then the mantissas. -/
theorem Canonical.compare_eq {m n : Nat} {e f : Int} (hm : Canonical m e) (hn : Canonical n f) :
    (compare e f).then (compare m n) = compare ((m : ℚ) * 2 ^ e) (n * 2 ^ f) := by
  rcases lt_trichotomy e f with h | rfl | h
  · rw [compare_lt_iff_lt.2 h, compare_lt_iff_lt.2 (hm.lt_of_exponent_lt hn h)]
    rfl
  · rw [compare_eq_iff_eq.2 rfl, Ordering.then]
    rcases lt_trichotomy m n with h | rfl | h
    · rw [compare_lt_iff_lt.2 h, compare_lt_iff_lt.2]
      exact mul_lt_mul_of_pos_right (by exact_mod_cast h) (two_zpow_pos e)
    · rw [compare_eq_iff_eq.2 rfl, compare_eq_iff_eq.2 rfl]
    · rw [compare_gt_iff_gt.2 h, compare_gt_iff_gt.2]
      exact mul_lt_mul_of_pos_right (by exact_mod_cast h) (two_zpow_pos e)
  · rw [compare_gt_iff_gt.2 h, compare_gt_iff_gt.2 (hn.lt_of_exponent_lt hm h)]
    rfl

/-- Negation turns the comparison of rationals around. -/
theorem swap_compare (x y : ℚ) : (compare x y).swap = compare (-x) (-y) := by
  rcases lt_trichotomy x y with h | rfl | h
  · rw [compare_lt_iff_lt.2 h, compare_gt_iff_gt.2 (neg_lt_neg h)]
    rfl
  · rw [compare_eq_iff_eq.2 rfl, compare_eq_iff_eq.2 rfl]
    rfl
  · rw [compare_gt_iff_gt.2 h, compare_lt_iff_lt.2 (neg_lt_neg h)]
    rfl

theorem some_lt_eq {x y : ℚ} (h : x < y) : some .lt = some (compare x y) := by
  rw [compare_lt_iff_lt.2 h]

theorem some_gt_eq {x y : ℚ} (h : y < x) : some .gt = some (compare x y) := by
  rw [compare_gt_iff_gt.2 h]

theorem some_eq_eq (x : ℚ) : some .eq = some (compare x x) := by
  rw [compare_eq_iff_eq.2 rfl]

/-- An infinity lies beyond every other number on its side. -/
theorem compare_infinity (s : Sign) {v : UnpackedFloat} (hv : Proper v) (hvn : v ≠ .notANumber) :
    UnpackedFloat.compare (.infinity s) v = some (compare (size (.infinity s)) (size v)) := by
  have htop := beyond_pos
  cases hv with
  | notANumber => exact absurd rfl hvn
  | infinity t =>
    cases s <;> cases t
    · exact some_eq_eq _
    · exact some_lt_eq (by simp only [size]; linarith)
    · exact some_gt_eq (by simp only [size]; linarith)
    · exact some_eq_eq _
  | zero t =>
    cases s
    · exact some_lt_eq (by simp only [size]; linarith)
    · exact some_gt_eq (by simp only [size]; linarith)
  | @finite t m e hp hc he =>
    have hpos := mantissa_mul_pos hp e
    have hlt := hc.lt_beyond he
    cases s
    · exact some_lt_eq (by cases t <;> simp only [size] <;> linarith)
    · exact some_gt_eq (by cases t <;> simp only [size] <;> linarith)

/-- The zeros lie between the negative and the positive numbers. -/
theorem compare_zero (s : Sign) {v : UnpackedFloat} (hv : Proper v) (hvn : v ≠ .notANumber) :
    UnpackedFloat.compare (.zero s) v = some (compare (size (.zero s)) (size v)) := by
  have htop := beyond_pos
  cases hv with
  | notANumber => exact absurd rfl hvn
  | infinity t =>
    cases t
    · exact some_gt_eq (by simp only [size]; linarith)
    · exact some_lt_eq (by simp only [size]; linarith)
  | zero t => exact some_eq_eq _
  | @finite t m e hp hc he =>
    have hpos := mantissa_mul_pos hp e
    cases t
    · exact some_gt_eq (by simp only [size]; linarith)
    · exact some_lt_eq (by simp only [size]; linarith)

/-- Finite numbers of one sign are compared by their exponents and mantissas. -/
theorem compare_finite (s : Sign) {m : Nat} {e : Int} (h : 0 < m) (hc : Canonical m e)
    (he : e ≤ 971) {v : UnpackedFloat} (hv : Proper v) (hvn : v ≠ .notANumber) :
    UnpackedFloat.compare (.finite s m e h) v = some (compare (size (.finite s m e h)) (size v)) := by
  have hpos := mantissa_mul_pos h e
  have hlt := hc.lt_beyond he
  cases hv with
  | notANumber => exact absurd rfl hvn
  | infinity t =>
    cases t
    · exact some_gt_eq (by cases s <;> simp only [size] <;> linarith)
    · exact some_lt_eq (by cases s <;> simp only [size] <;> linarith)
  | zero t =>
    cases s
    · exact some_lt_eq (by simp only [size]; linarith)
    · exact some_gt_eq (by simp only [size]; linarith)
  | @finite t n f hq hd hf =>
    have hpos' := mantissa_mul_pos hq f
    cases s <;> cases t
    · simp only [UnpackedFloat.compare, hc.compare_eq hd, size, swap_compare]
    · exact some_lt_eq (by simp only [size]; linarith)
    · exact some_gt_eq (by simp only [size]; linarith)
    · simp only [UnpackedFloat.compare, hc.compare_eq hd, size]

/-- The comparison of doubles is that of the rationals that they stand for. -/
theorem compare_eq {u v : UnpackedFloat} (hu : Proper u) (hv : Proper v) (hun : u ≠ .notANumber)
    (hvn : v ≠ .notANumber) : u.compare v = some (compare (size u) (size v)) := by
  cases hu with
  | notANumber => exact absurd rfl hun
  | infinity s => exact compare_infinity s hv hvn
  | zero s => exact compare_zero s hv hvn
  | finite h hc he => exact compare_finite _ h hc he hv hvn

/-- What is no number is not compared. -/
theorem compare_notANumber {u v : UnpackedFloat} (h : u = .notANumber ∨ v = .notANumber) :
    u.compare v = none := by
  rcases h with rfl | rfl
  · rfl
  · cases u <;> rfl

/-- Two doubles are compared when both are numbers, and then by the rationals that they stand
for. -/
theorem compare_eq_some_iff {x y : Float} {o : Ordering} :
    (exact x).compare (exact y) = some o ↔
      exact x ≠ .notANumber ∧ exact y ≠ .notANumber ∧
        compare (size (exact x)) (size (exact y)) = o := by
  by_cases h : exact x = .notANumber ∨ exact y = .notANumber
  · rw [compare_notANumber h]
    rcases h with h | h <;> simp [h]
  · rw [not_or] at h
    rw [compare_eq (proper_exact x) (proper_exact y) h.1 h.2]
    simp [h]

/-- A double is smaller than another one when both are numbers, and the rationals that they stand
for are in this order. -/
theorem lt_iff {x y : Float} :
    x < y ↔ exact x ≠ .notANumber ∧ exact y ≠ .notANumber ∧ size (exact x) < size (exact y) := by
  rw [← compare_lt_iff_lt, ← compare_eq_some_iff]
  show decide (x.toModel < y.toModel) = true ↔ _
  rw [decide_eq_true_iff]
  show ((exact x).compare (exact y) == some .lt) = true ↔ _
  exact beq_iff_eq

/-- The same of being at most as great. -/
theorem le_iff {x y : Float} :
    x ≤ y ↔ exact x ≠ .notANumber ∧ exact y ≠ .notANumber ∧ size (exact x) ≤ size (exact y) := by
  have hle : x ≤ y ↔ ∃ o, (exact x).compare (exact y) = some o ∧ o.isLE = true := by
    show decide (x.toModel ≤ y.toModel) = true ↔ _
    rw [decide_eq_true_iff]
    show ((exact x).compare (exact y)).any (·.isLE) = true ↔ _
    rw [Option.any_eq_true]
  rw [hle]
  constructor
  · rintro ⟨o, ho, hle⟩
    obtain ⟨hx, hy, rfl⟩ := compare_eq_some_iff.1 ho
    exact ⟨hx, hy, compare_le_iff_le.1 (Ordering.isLE_iff_ne_gt.1 hle)⟩
  · rintro ⟨hx, hy, h⟩
    exact ⟨_, compare_eq_some_iff.2 ⟨hx, hy, rfl⟩,
      Ordering.isLE_iff_ne_gt.2 (compare_le_iff_le.2 h)⟩

end LoadProbe.Number
