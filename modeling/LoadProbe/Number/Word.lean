/-!
# Machine words as ranges of integers

Counts, indices and run ids are kept as unbounded integers; where a word of fixed width is part
of the contract, it is named by the range of integers that it holds. `Range.clamp` is the
saturating conversion into a range.
-/

namespace LoadProbe.Number

/-- The integers from `lo` to `hi`, both included. -/
structure Range where
  lo : Int
  hi : Int
deriving DecidableEq, Repr

namespace Range

/-- `n` lies in the range. -/
def contains (r : Range) (n : Int) : Bool :=
  decide (r.lo ≤ n) && decide (n ≤ r.hi)

/-- The integer of the range that is nearest to `n`. -/
def clamp (r : Range) (n : Int) : Int :=
  max r.lo (min r.hi n)

theorem contains_iff {r : Range} {n : Int} : r.contains n = true ↔ r.lo ≤ n ∧ n ≤ r.hi := by
  simp [contains]

/-- Clamping leaves the members of a range alone. -/
theorem clamp_of_contains {r : Range} {n : Int} (h : r.contains n = true) : r.clamp n = n := by
  obtain ⟨hlo, hhi⟩ := contains_iff.mp h
  simp only [clamp]
  omega

/-- What a nonempty range clamps to lies in it. -/
theorem contains_clamp {r : Range} (h : r.lo ≤ r.hi) (n : Int) : r.contains (r.clamp n) = true := by
  rw [contains_iff]
  simp only [clamp]
  omega

end Range

/-- Signed words of 64 bits. -/
def signed64 : Range := ⟨-9223372036854775808, 9223372036854775807⟩

/-- Unsigned words of 64 bits. -/
def unsigned64 : Range := ⟨0, 18446744073709551615⟩

/-- Unsigned words of 32 bits. -/
def unsigned32 : Range := ⟨0, 4294967295⟩

end LoadProbe.Number
