/-!
# White space

Which characters are white space, in any script: those of the Unicode property White_Space.
`trim` takes them off both ends of a text.
-/

namespace LoadProbe.Text

/-- White space: blanks, line breaks, and the spaces of typography. -/
def isSpace (c : Char) : Bool :=
  let n := c.toNat
  (9 ≤ n && n ≤ 13) || n = 0x20 || n = 0x85 || n = 0xa0 || n = 0x1680 ||
    (0x2000 ≤ n && n ≤ 0x200a) || n = 0x2028 || n = 0x2029 || n = 0x202f || n = 0x205f || n = 0x3000

/-- What is white space in ASCII is among it. -/
theorem isSpace_of_isWhitespace {c : Char} (h : c.isWhitespace = true) : isSpace c = true := by
  change (((decide (c = ' ') || decide (c = '\t')) || decide (c = '\r')) ||
    decide (c = '\n')) = true at h
  simp only [Bool.or_eq_true, decide_eq_true_eq] at h
  rcases h with ((rfl | rfl) | rfl) | rfl <;> rfl

/-- A text without the white space at its ends. -/
def trim (cs : List Char) : List Char :=
  ((cs.dropWhile isSpace).reverse.dropWhile isSpace).reverse

end LoadProbe.Text
