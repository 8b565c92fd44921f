import LoadProbe.Proofs.Json.Printing
import LoadProbe.Proofs.Number.Shortest

/-!
# Numbers in a text

A decimal is written as digits before the point, digits behind it and an exponent, of which one of
the last two may be missing (`Numeral`). The reader takes such a text apart into exactly these rows
of digits (`Numeral.WellFormed.unsigned?_text`), and the rows that a double is written with stand
for a decimal that rounds to it. So a reader that takes the nearest double finds every finite double
again (`number?_render`). An integer has neither of the two, and is found by its digits
(`number?_repr`).
-/

namespace LoadProbe.Json

open Number Float.Model Float.Model.UnpackedFloat

variable {decimal? : Literal → Option Float} {digits rest : List Char} {c : Char}

/-! ## What ends a number -/

/-- What follows a number does not go on with it. -/
structure Ends (rest : List Char) : Prop where
  noDigit : NoDigit rest
  noPoint : rest.head? ≠ some '.'
  noMark : rest.head? ≠ some 'e' ∧ rest.head? ≠ some 'E'

theorem ends_nil : Ends [] :=
  ⟨noDigit_nil, nofun, nofun, nofun⟩

theorem dropWhile_digits (hdigits : ∀ c ∈ digits, c.isDigit = true) (hrest : NoDigit rest) :
    (digits ++ rest).dropWhile Char.isDigit = rest := by
  rw [List.dropWhile_append_of_pos hdigits]
  cases rest with
  | nil => rfl
  | cons c rest =>
    rw [List.dropWhile_cons_of_neg (by rw [hrest c rfl]; exact Bool.false_ne_true)]

/-- Digits before the point: none of them is a zero in front of others. -/
theorem wholePart?_append (hdigits : ∀ d ∈ c :: digits, d.isDigit = true)
    (hzero : c ≠ '0' ∨ digits = []) (hrest : NoDigit rest) :
    wholePart? (c :: digits ++ rest) = some (c :: digits, rest) := by
  unfold wholePart?
  rw [takeWhile_digits hdigits hrest, dropWhile_digits hdigits hrest]
  split
  · next h => cases h
  · next h =>
    obtain ⟨rfl, rfl⟩ := List.cons.inj h
    rcases hzero with hne | hnil
    · exact absurd rfl hne
    · cases hnil
  · rfl

theorem fractionPart?_append (hdigits : ∀ d ∈ digits, d.isDigit = true) (hne : digits ≠ [])
    (hrest : NoDigit rest) : fractionPart? ('.' :: (digits ++ rest)) = some (digits, rest) := by
  have hempty : digits.isEmpty = false := by
    rw [List.isEmpty_eq_false_iff]
    exact hne
  rw [fractionPart?, takeWhile_digits hdigits hrest, dropWhile_digits hdigits hrest]
  simp only [hempty, Bool.false_eq_true, if_false]

theorem fractionPart?_none (hrest : rest.head? ≠ some '.') :
    fractionPart? rest = some ([], rest) := by
  unfold fractionPart?
  split
  · exact absurd rfl hrest
  · rfl

theorem exponentPart?_none (he : rest.head? ≠ some 'e') (hE : rest.head? ≠ some 'E') :
    exponentPart? rest = some (none, rest) := by
  cases rest with
  | nil => rfl
  | cons c rest =>
    have hmark : ¬(c = 'e' ∨ c = 'E') := by
      rintro (rfl | rfl)
      · exact he rfl
      · exact hE rfl
    simp only [exponentPart?, if_neg hmark]

/-- The value of a row of digits. -/
theorem naturalOf_eq (digits : List Char) : naturalOf digits = Nat.ofDigitChars 10 digits 0 :=
  rfl

theorem naturalOf_toDigits (n : Nat) : naturalOf (Nat.toDigits 10 n) = n :=
  Nat.ofDigitChars_toDigits (by omega) (by omega)

/-- The text of an exponent. -/
def exponentText (k : Int) : List Char :=
  'e' :: (if k < 0 then '-' else '+') :: Nat.toDigits 10 k.natAbs

theorem exponentPart?_append (k : Int) (hrest : NoDigit rest) :
    exponentPart? (exponentText k ++ rest) = some (some k, rest) := by
  have hdigits := isDigit_of_mem_toDigits k.natAbs
  have hempty : (Nat.toDigits 10 k.natAbs).isEmpty = false := by
    rw [List.isEmpty_eq_false_iff]
    exact Nat.toDigits_ne_nil
  unfold exponentText
  split <;>
  · simp only [List.cons_append, exponentPart?, true_or, if_true, takeWhile_digits hdigits hrest,
      dropWhile_digits hdigits hrest, hempty, Bool.false_eq_true, if_false, naturalOf_toDigits]
    congr 3
    omega

/-! ## Numerals -/

/-- A decimal as it is written, without its sign: digits before the point, digits behind it, and an
exponent. -/
structure Numeral where
  whole : List Char
  fraction : List Char
  exponent : Option Int

namespace Numeral

variable {n : Numeral}

/-- The text of a numeral. A point stands only before digits. -/
def text (n : Numeral) : List Char :=
  n.whole ++ ((if n.fraction = [] then [] else '.' :: n.fraction) ++
    n.exponent.elim [] exponentText)

/-- The literal that a numeral is read as. -/
def literal (n : Numeral) (negative : Bool) : Literal :=
  ⟨negative, n.whole, n.fraction, n.exponent.getD 0⟩

/-- The rows of a numeral are digits, no zero stands in front of others, and the numeral is not
that of an integer. -/
structure WellFormed (n : Numeral) : Prop where
  whole : ∃ c digits, n.whole = c :: digits ∧ (c ≠ '0' ∨ digits = [])
  wholeDigits : ∀ d ∈ n.whole, d.isDigit = true
  fractionDigits : ∀ d ∈ n.fraction, d.isDigit = true
  decimal : n.fraction ≠ [] ∨ n.exponent ≠ none

theorem noDigit_exponentText (hrest : Ends rest) (exponent : Option Int) :
    NoDigit (exponent.elim [] exponentText ++ rest) := by
  cases exponent with
  | none => exact hrest.noDigit
  | some k => exact noDigit_cons (by decide) _

theorem exponentPart?_elim (hrest : Ends rest) (exponent : Option Int) :
    exponentPart? (exponent.elim [] exponentText ++ rest) = some (exponent, rest) := by
  cases exponent with
  | none => exact exponentPart?_none hrest.noMark.1 hrest.noMark.2
  | some k => exact exponentPart?_append k hrest.noDigit

/-- The part behind the digits before the point. -/
theorem fractionPart?_elim (hdigits : ∀ d ∈ digits, d.isDigit = true) (hrest : Ends rest)
    (exponent : Option Int) :
    fractionPart? ((if digits = [] then [] else '.' :: digits) ++
      (exponent.elim [] exponentText ++ rest)) =
      some (digits, exponent.elim [] exponentText ++ rest) ∧
    NoDigit ((if digits = [] then [] else '.' :: digits) ++
      (exponent.elim [] exponentText ++ rest)) := by
  have hnoDigit := noDigit_exponentText hrest exponent
  split
  · next hnil =>
    subst hnil
    refine ⟨fractionPart?_none ?_, hnoDigit⟩
    cases exponent with
    | none => exact hrest.noPoint
    | some k => exact nofun
  · next hne => exact ⟨fractionPart?_append hdigits hne hnoDigit, noDigit_cons (by decide) _⟩

theorem WellFormed.exists_first (hn : n.WellFormed) :
    ∃ c cs, n.text = c :: cs ∧ c.isDigit = true := by
  obtain ⟨c, digits, hwhole, -⟩ := hn.whole
  refine ⟨c, _, by rw [text, hwhole, List.cons_append], hn.wholeDigits c ?_⟩
  rw [hwhole]
  exact List.mem_cons_self

/-- The text of a numeral is read as its literal. -/
theorem WellFormed.unsigned?_text (hn : n.WellFormed) (negative : Bool) (hrest : Ends rest) :
    unsigned? decimal? negative (n.text ++ rest) =
      (decimal? (n.literal negative)).map fun x => (.float x, rest) := by
  obtain ⟨c, digits, hwhole, hzero⟩ := hn.whole
  obtain ⟨hfraction, hbehind⟩ := fractionPart?_elim hn.fractionDigits hrest n.exponent
  have hdigits := hn.wholeDigits
  rw [hwhole] at hdigits
  have hread := wholePart?_append hdigits hzero hbehind
  rw [text, List.append_assoc, List.append_assoc, unsigned?, hwhole, hread]
  simp only [Option.bind_eq_bind, Option.bind_some, hfraction, exponentPart?_elim hrest]
  rw [literal, hwhole]
  split
  · next hfraction hexponent =>
    rcases hn.decimal with hne | hne
    · exact absurd hfraction hne
    · exact absurd hexponent hne
  · cases decimal? ⟨negative, c :: digits, n.fraction, n.exponent.getD 0⟩ <;> rfl

end Numeral

/-- The text of a sign. -/
def signText (negative : Bool) : List Char :=
  if negative then ['-'] else []

/-- The digits of a number are read after its sign. -/
theorem number?_signText (negative : Bool) (hc : c.isDigit = true) :
    number? decimal? (signText negative ++ c :: rest) =
      unsigned? decimal? negative (c :: rest) := by
  cases negative with
  | true => rfl
  | false =>
    refine number?.eq_2 _ _ fun r h => ?_
    obtain ⟨rfl, -⟩ := List.cons.inj h
    exact absurd hc (by decide)

/-! ## The numeral of a double -/

theorem toDigits_eq_cons_of_pos {n : Nat} (hn : 0 < n) :
    ∃ c digits, Nat.toDigits 10 n = c :: digits ∧ c ≠ '0' := by
  induction n using Nat.strongRecOn with
  | ind n ih =>
    rcases Nat.lt_or_ge n 10 with hlt | hge
    · have hdigit : ∀ k < 10, 0 < k → Nat.digitChar k ≠ '0' := by decide
      exact ⟨_, [], Nat.toDigits_of_lt_base hlt, hdigit n hlt hn⟩
    · obtain ⟨c, digits, hfirst, hc⟩ := ih (n / 10) (by omega) (by omega)
      exact ⟨c, _, by rw [Nat.toDigits_of_base_le (by omega) hge, hfirst, List.cons_append], hc⟩

theorem naturalOf_append_zeros (digits : List Char) (k : Nat) :
    naturalOf (digits ++ List.replicate k '0') = 10 ^ k * naturalOf digits := by
  rw [naturalOf_eq, Nat.ofDigitChars_append, Nat.ofDigitChars_replicate_zero]
  rfl

theorem naturalOf_zeros_append (k : Nat) (digits : List Char) :
    naturalOf (List.replicate k '0' ++ digits) = naturalOf digits := by
  rw [naturalOf_eq, Nat.ofDigitChars_append, Nat.ofDigitChars_replicate_zero, mul_zero]
  rfl

/-- The numeral is well formed and stands for the decimal, and this is its text. -/
structure Numeral.Writes (n : Numeral) (d : Decimal) (text : String) : Prop where
  wellFormed : n.WellFormed
  text_eq : text.toList = n.text
  magnitude_eq : ∀ negative, (n.literal negative).magnitude = d.size

namespace Numeral

variable {n : Numeral} {d : Decimal} {k : Nat}

/-- A numeral stands for the decimal of its digits, the zeros at their end moved to the exponent. -/
theorem magnitude_eq_of (hdigits : naturalOf (n.whole ++ n.fraction) = 10 ^ k * d.digits)
    (hexponent : n.exponent.getD 0 - n.fraction.length + k = d.exponent) (negative : Bool) :
    (n.literal negative).magnitude = d.size := by
  rw [Literal.magnitude, literal, hdigits, Decimal.size, ← hexponent, zpow_add₀ (by norm_num),
    zpow_natCast]
  push_cast
  ring

theorem isDigit_of_mem_zeros (hc : c ∈ List.replicate k '0') : c.isDigit = true := by
  rw [List.eq_of_mem_replicate hc]
  decide

/-- The text of a numeral with digits behind the point and no exponent. -/
theorem text_of_fraction (hne : n.fraction ≠ []) (hnone : n.exponent = none) :
    n.text = n.whole ++ '.' :: n.fraction := by
  rw [text, if_neg hne, hnone]
  exact congrArg (n.whole ++ ·) (List.append_nil _)

/-- Digits and zeros in place, with a zero behind the point. -/
theorem writes_integral (hd : 0 < d.digits) (he : 0 ≤ d.exponent) :
    Writes ⟨Nat.toDigits 10 d.digits ++ List.replicate d.exponent.toNat '0', ['0'], none⟩ d
      (numberLayout.placed (Nat.repr d.digits) d.exponent) := by
  obtain ⟨k, hk⟩ := Int.eq_ofNat_of_zero_le he
  obtain ⟨c, digits, hdigits, hc⟩ := toDigits_eq_cons_of_pos hd
  refine ⟨⟨⟨c, _, congrArg (· ++ _) hdigits, .inl hc⟩, ?_, ?_, .inl nofun⟩, ?_, ?_⟩
  · intro c hc
    rcases List.mem_append.1 hc with hmem | hmem
    · exact isDigit_of_mem_toDigits _ c hmem
    · exact isDigit_of_mem_zeros hmem
  · exact fun c hc => isDigit_of_mem_zeros (k := 1) hc
  · rw [Layout.placed, if_pos he, String.toList_append, String.toList_append, toList_repr,
      Layout.zeros, String.toList_ofList]
    rfl
  · have hnatural : naturalOf (Nat.toDigits 10 d.digits ++ List.replicate d.exponent.toNat '0' ++
        ['0']) = 10 ^ (k + 1) * d.digits := by
      rw [List.append_assoc, show ['0'] = List.replicate 1 '0' from rfl,
        List.replicate_append_replicate, naturalOf_append_zeros, naturalOf_toDigits, hk]
      rfl
    exact magnitude_eq_of hnatural (by simp [hk])

/-- All digits behind the point, after some zeros. -/
theorem writes_fraction (he : d.exponent < 0)
    (hlength : (Nat.repr d.digits).length ≤ (-d.exponent).toNat) :
    Writes ⟨['0'], List.replicate ((-d.exponent).toNat - (Nat.repr d.digits).length) '0' ++
      Nat.toDigits 10 d.digits, none⟩ d (numberLayout.placed (Nat.repr d.digits) d.exponent) := by
  refine ⟨⟨⟨'0', [], rfl, .inr rfl⟩, ?_, ?_, .inl ?_⟩, ?_, ?_⟩
  · exact fun c hc => isDigit_of_mem_zeros (k := 1) hc
  · intro c hc
    rcases List.mem_append.1 hc with hmem | hmem
    · exact isDigit_of_mem_zeros hmem
    · exact isDigit_of_mem_toDigits _ c hmem
  · exact List.append_ne_nil_of_right_ne_nil _ Nat.toDigits_ne_nil
  · rw [text_of_fraction (List.append_ne_nil_of_right_ne_nil _ Nat.toDigits_ne_nil) rfl,
      Layout.placed, if_neg (by omega)]
    simp only [if_pos hlength, String.toList_append, toList_repr, Layout.zeros,
      String.toList_ofList, List.append_assoc]
    rfl
  · have hnatural : naturalOf (['0'] ++ (List.replicate ((-d.exponent).toNat -
        (Nat.repr d.digits).length) '0' ++ Nat.toDigits 10 d.digits)) = 10 ^ 0 * d.digits := by
      rw [← List.append_assoc, show ['0'] = List.replicate 1 '0' from rfl,
        List.replicate_append_replicate, naturalOf_zeros_append, naturalOf_toDigits, pow_zero,
        one_mul]
    refine magnitude_eq_of hnatural ?_
    simp only [Option.getD_none, List.length_append, List.length_replicate, ← length_repr]
    omega

/-- The digits of a decimal, some of them before the point and the others behind it. -/
def cut (d : Decimal) (before : Nat) (exponent : Option Int) : Numeral :=
  ⟨(Nat.toDigits 10 d.digits).take before, (Nat.toDigits 10 d.digits).drop before, exponent⟩

/-- No digit of the decimal is lost, so only the exponent has to fit. -/
theorem writes_cut {before : Nat} {exponent : Option Int} {text : String} (hd : 0 < d.digits)
    (hdecimal : (cut d (before + 1) exponent).fraction ≠ [] ∨ exponent ≠ none)
    (htext : text.toList = (cut d (before + 1) exponent).text)
    (hexponent : exponent.getD 0 - (cut d (before + 1) exponent).fraction.length = d.exponent) :
    Writes (cut d (before + 1) exponent) d text := by
  obtain ⟨c, digits, hdigits, hc⟩ := toDigits_eq_cons_of_pos hd
  have hrow := isDigit_of_mem_toDigits d.digits
  refine ⟨⟨⟨c, digits.take before, congrArg (List.take (before + 1)) hdigits, .inl hc⟩, ?_, ?_,
    hdecimal⟩, htext, ?_⟩
  · exact fun c hc => hrow c (List.mem_of_mem_take hc)
  · exact fun c hc => hrow c (List.mem_of_mem_drop hc)
  · refine magnitude_eq_of (k := 0) ?_ ?_
    · rw [cut, List.take_append_drop, naturalOf_toDigits, pow_zero, one_mul]
    · rw [Nat.cast_zero, add_zero]
      exact hexponent

/-- Some of the digits before the point, the others behind it. -/
theorem writes_mixed (hd : 0 < d.digits) (he : d.exponent < 0)
    (hlength : (-d.exponent).toNat < (Nat.repr d.digits).length) :
    Writes (cut d ((Nat.repr d.digits).length - (-d.exponent).toNat) none) d
      (numberLayout.placed (Nat.repr d.digits) d.exponent) := by
  obtain ⟨before, hbefore⟩ : ∃ before,
      (Nat.repr d.digits).length - (-d.exponent).toNat = before + 1 :=
    Nat.exists_eq_add_one.2 (by omega)
  have hdrop : (cut d (before + 1) none).fraction.length = (-d.exponent).toNat := by
    rw [cut, List.length_drop, ← length_repr]
    omega
  have hne : (cut d (before + 1) none).fraction ≠ [] := by
    rw [← List.length_pos_iff, hdrop]
    omega
  rw [hbefore]
  refine writes_cut hd (.inl hne) ?_ ?_
  · rw [text_of_fraction hne rfl, Layout.placed, if_neg (by omega)]
    simp only [if_neg (not_le.2 hlength), hbefore, String.toList_append, toList_repr,
      String.toList_ofList, List.append_assoc]
    rfl
  · rw [hdrop, Option.getD_none]
    omega

/-- One digit before the point, the others behind it, and the exponent of the first. -/
theorem writes_scientific (hd : 0 < d.digits) :
    Writes (cut d 1 (some (d.exponent + (Nat.repr d.digits).length - 1))) d
      (Layout.scientific (Nat.repr d.digits) (d.exponent + (Nat.repr d.digits).length - 1)) := by
  refine writes_cut hd (.inr nofun) ?_ ?_
  · have hpoint : (if (String.ofList ((Nat.toDigits 10 d.digits).drop 1)).isEmpty then ""
        else "." ++ String.ofList ((Nat.toDigits 10 d.digits).drop 1)).toList =
        if (Nat.toDigits 10 d.digits).drop 1 = [] then []
        else '.' :: (Nat.toDigits 10 d.digits).drop 1 := by
      cases (Nat.toDigits 10 d.digits).drop 1 with
      | nil => rfl
      | cons c digits => simp
    have hmark : ∀ leading : Int, (if leading < 0 then "e-" else "e+").toList ++
        Nat.toDigits 10 leading.natAbs = exponentText leading := fun leading => by
      by_cases hneg : leading < 0
      · rw [exponentText, if_pos hneg, if_pos hneg]
        rfl
      · rw [exponentText, if_neg hneg, if_neg hneg]
        rfl
    simp only [Layout.scientific, String.toList_append, toList_repr, String.toList_ofList, hpoint,
      List.append_assoc, hmark]
    rfl
  · have hpos := (length_repr_bounds hd).1
    rw [cut, List.length_drop, ← length_repr, Option.getD_some]
    omega

/-- Every positive decimal is written as a numeral. -/
theorem exists_writes (hd : 0 < d.digits) : ∃ n : Numeral, n.Writes d (numberLayout.decimal d) := by
  rw [Layout.decimal]
  split
  · rcases lt_or_ge d.exponent 0 with hneg | hpos
    · rcases le_or_gt (Nat.repr d.digits).length (-d.exponent).toNat with hlength | hlength
      · exact ⟨_, writes_fraction hneg hlength⟩
      · exact ⟨_, writes_mixed hd hneg hlength⟩
    · exact ⟨_, writes_integral hd hpos⟩
  · exact ⟨_, writes_scientific hd⟩

end Numeral

variable {x : Float}

/-- A finite double is written as a numeral of which the literal is read as this double. -/
theorem exists_numeral (hx : x.isFinite = true) : ∃ n : Numeral, n.WellFormed ∧
    (numberLayout.render x).toList = signText (isNegative x) ++ n.text ∧
      (n.literal (isNegative x)).value = x := by
  have hfinite : (exact x).isFinite = true := hx
  have hsign : ∀ s : Sign,
      (if s == .negative then "-" else "").toList = signText (s == .negative) :=
    fun s => by cases s <;> rfl
  have hproper := proper_exact x
  unfold Layout.render isNegative
  cases hexact : exact x with
  | notANumber | infinity s =>
    rw [hexact] at hfinite
    cases hfinite
  | zero s =>
    have hdigits : ∀ c ∈ ['0'], c.isDigit = true := fun c hc =>
      Numeral.isDigit_of_mem_zeros (k := 1) hc
    refine ⟨⟨['0'], ['0'], none⟩, ⟨⟨'0', [], rfl, .inr rfl⟩, hdigits, hdigits, .inl nofun⟩, ?_, ?_⟩
    · rw [String.toList_append, hsign]
      rfl
    · exact Literal.value_eq_of_zero hexact rfl rfl
  | finite s m e hm =>
    rw [hexact] at hproper
    cases hproper with
    | finite _ hc he =>
      have hrounds := Expansion.shortest_rounds hc numberLayout.tie
      obtain ⟨n, hn⟩ : ∃ n : Numeral, n.Writes ((Expansion.ofBinary m e).shortest numberLayout.tie)
          (numberLayout.decimal ((Expansion.ofBinary m e).shortest numberLayout.tie)) := by
        refine Numeral.exists_writes ?_
        rw [Nat.pos_iff_ne_zero]
        intro hzero
        have hpos := hrounds.lt_of_pos (mantissa_mul_pos hm e)
        rw [Decimal.size, hzero, Nat.cast_zero, zero_mul] at hpos
        exact absurd hpos (not_lt.2 (ten_zpow_pos _).le)
      refine ⟨n, hn.wellFormed, ?_, Literal.value_eq hexact rfl ?_⟩
      · rw [String.toList_append, hsign]
        exact congrArg (signText _ ++ ·) hn.text_eq
      · rw [hn.magnitude_eq]
        exact hrounds

/-- The text of a finite double is read as this double. -/
theorem number?_render (hx : x.isFinite = true) (hrest : Ends rest) :
    number? Literal.nearest? ((numberLayout.render x).toList ++ rest) = some (.float x, rest) := by
  obtain ⟨n, hn, htext, hvalue⟩ := exists_numeral hx
  obtain ⟨c, cs, hfirst, hc⟩ := hn.exists_first
  rw [htext, List.append_assoc, hfirst, List.cons_append, number?_signText _ hc, ← List.cons_append,
    ← hfirst, hn.unsigned?_text _ hrest, Literal.nearest?_eq hvalue hx]
  rfl

/-- The digits of a natural are read as they are. -/
theorem unsigned?_toDigits (negative : Bool) (n : Nat) (hrest : Ends rest) :
    unsigned? decimal? negative (Nat.toDigits 10 n ++ rest) =
      (wholeNumber? decimal? negative (Nat.toDigits 10 n)).map fun v => (v, rest) := by
  have hwhole : wholePart? (Nat.toDigits 10 n ++ rest) = some (Nat.toDigits 10 n, rest) := by
    have hdigits := isDigit_of_mem_toDigits n
    rcases Nat.eq_zero_or_pos n with rfl | hn
    · rw [Nat.toDigits_zero] at hdigits ⊢
      exact wholePart?_append hdigits (.inr rfl) hrest.noDigit
    · obtain ⟨c, digits, hn, hc⟩ := toDigits_eq_cons_of_pos hn
      rw [hn] at hdigits ⊢
      exact wholePart?_append hdigits (.inl hc) hrest.noDigit
  rw [unsigned?, hwhole]
  simp only [Option.bind_eq_bind, Option.bind_some, fractionPart?_none hrest.noPoint,
    exponentPart?_none hrest.noMark.1 hrest.noMark.2]
  cases wholeNumber? decimal? negative (Nat.toDigits 10 n) <;> rfl

/-- The digits of an integer of the words stand for this integer. -/
theorem wholeNumber?_toDigits {negative : Bool} {n : Nat} (hzero : negative = true → 0 < n)
    (hword : signed64.contains (if negative then -(n : Int) else n) = true ∨
      unsigned64.contains (if negative then -(n : Int) else n) = true) :
    wholeNumber? decimal? negative (Nat.toDigits 10 n) =
      some (.int (if negative then -(n : Int) else n)) := by
  have hnot : (negative && (if negative then -(n : Int) else n) == 0) = false := by
    cases negative with
    | false => rfl
    | true =>
      have := hzero rfl
      simp only [if_true, Bool.true_and, beq_eq_false_iff_ne]
      omega
  rw [← Bool.or_eq_true] at hword
  simp only [wholeNumber?, naturalOf_toDigits, hnot, Bool.false_eq_true, if_false, hword, if_true]

/-- The text of an integer of the words is read as this integer. -/
theorem number?_repr {n : Int} (hn : signed64.contains n = true ∨ unsigned64.contains n = true)
    (hrest : Ends rest) : number? decimal? ((Int.repr n).toList ++ rest) = some (.int n, rest) := by
  have hread : ∀ (negative : Bool) (k : Nat), (if negative then -(k : Int) else k) = n →
      (negative = true → 0 < k) →
      number? decimal? (signText negative ++ (Nat.toDigits 10 k ++ rest)) =
        some (.int n, rest) := by
    rintro negative k rfl hzero
    obtain ⟨c, cs, hfirst, hc⟩ := toDigits_eq_cons k
    rw [hfirst, List.cons_append, number?_signText _ hc, ← List.cons_append, ← hfirst,
      unsigned?_toDigits _ _ hrest, wholeNumber?_toDigits hzero hn]
    rfl
  cases n with
  | ofNat k =>
    rw [toList_repr_ofNat]
    exact hread false k rfl nofun
  | negSucc k =>
    rw [toList_repr_negSucc]
    exact hread true (k + 1) rfl fun _ => Nat.succ_pos k

end LoadProbe.Json
