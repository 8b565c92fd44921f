import LoadProbe.Pass.Controller
import LoadProbe.Proofs.Number.Negation

/-!
# Scaling a number of executors

A factor acts on a number of executors through a double, which may be rounded, and the product is
rounded down to a word. A positive factor keeps the order of all numbers of executors, negative
ones among them (`scale_mono`), and takes none across zero (`scale_nonneg`, `scale_nonpos`). A
factor of at most 1 takes a number towards zero, so it makes a positive one no greater (`scale_le`)
but a negative one no less (`le_scale_of_nonpos`), and a factor of at least 1 takes it away from
zero (`le_scale`, `scale_le_of_nonpos`). That holds as long as the number is a double itself.
-/

namespace LoadProbe.Pass

open Number

variable {f : Float}

/-- A positive factor keeps the order of executors. -/
theorem scale_mono (hf : 0.0 < f) {a b : Int} (h : a ≤ b) : scale a f ≤ scale b f :=
  floor_ofInt_mul_mono hf h

theorem scale_zero (f : Float) : scale 0 f = 0 := by
  have hsize : size (exact (Float.ofInt 0 * f)) = 0 := size_zero_mul f
  rw [scale, floorIn_eq, hsize, Int.floor_zero]
  rfl

theorem scale_nonneg (hf : 0.0 < f) {k : Int} (hk : 0 ≤ k) : 0 ≤ scale k f :=
  (scale_zero f).symm.trans_le (scale_mono hf hk)

theorem scale_nonpos (hf : 0.0 < f) {k : Int} (hk : k ≤ 0) : scale k f ≤ 0 :=
  (scale_mono hf hk).trans_eq (scale_zero f)

/-- Scaling ends in a word. -/
theorem contains_scale (k : Int) (f : Float) : signed64.contains (scale k f) = true := by
  rw [scale, floorIn_eq]
  exact Range.contains_clamp (by decide) _

/-! ## Factors up to 1 and from 1 on -/

/-- A factor of at most 1 makes no number of executors greater that is a double. -/
theorem scale_natCast_le (hf : 0.0 < f) (hle : f ≤ 1.0) {n : Nat} (hn : Rounds n n)
    (hlt : n < 2 ^ 63) : scale n f ≤ n := by
  have hlo : signed64.lo ≤ (n : Int) := by
    have : signed64.lo ≤ 0 := by decide
    omega
  exact floorIn_le hlo (by exact_mod_cast size_mul_le hf hle hn (by omega))

/-- Of a number that is not positive, a factor of at most 1 makes none less: the product is nearer
to zero. -/
theorem le_scale_of_nonpos (hf : 0.0 < f) (hle : f ≤ 1.0) {k : Int} (hneg : k ≤ 0)
    (hk : -2 ^ 53 < k) : k ≤ scale k f := by
  obtain ⟨n, rfl⟩ := Int.exists_eq_neg_ofNat hneg
  have hhi : -(n : Int) ≤ signed64.hi := by
    have : 0 ≤ signed64.hi := by decide
    omega
  refine le_floorIn hhi ?_
  rw [size_ofInt_neg_mul]
  push_cast
  exact neg_le_neg (size_mul_le hf hle (rounds_of_lt (by omega)) (by omega))

/-- A factor of at least 1 makes none of them greater, down to the least word. -/
theorem scale_neg_natCast_le (hf : 0.0 < f) (hle : 1.0 ≤ f) {n : Nat} (hn : Rounds n n)
    (hlt : n ≤ 2 ^ 63) : scale (-n) f ≤ -n := by
  have hlo : signed64.lo ≤ -(n : Int) := by
    have : signed64.lo = -2 ^ 63 := by decide
    omega
  refine floorIn_le hlo ?_
  rw [size_ofInt_neg_mul]
  push_cast
  exact neg_le_neg (le_size_mul hf hle hn (by omega))

/-- Exactly the factors of at least 1 leave the least word alone. -/
theorem scale_lowest_iff (hf : 0.0 < f) : scale signed64.lo f = signed64.lo ↔ 1.0 ≤ f := by
  have hlo : signed64.lo = -(2 ^ 63 : Nat) := by decide
  refine ⟨fun h => ?_, fun hle => ?_⟩
  · by_contra hlt
    have hback : -(2 ^ 63 - 1024 : Nat) ≤ scale (-(2 ^ 63 : Nat)) f := by
      refine le_floorIn (by decide) ?_
      rw [size_ofInt_neg_mul]
      exact_mod_cast neg_le_neg (size_word_mul_le hf hlt)
    rw [← hlo, h, hlo] at hback
    exact absurd hback (by decide)
  · refine le_antisymm ?_ (Range.contains_iff.1 (contains_scale _ f)).1
    rw [hlo]
    exact scale_neg_natCast_le hf hle rounds_word.1 le_rfl

/-- Above the doubles even the factor 1 does: this number is rounded to the double after it. -/
example : scale (2 ^ 53 + 3) 1.0 = 2 ^ 53 + 4 := by decide +kernel

end LoadProbe.Pass
