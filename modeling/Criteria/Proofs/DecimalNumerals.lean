import Criteria.Proofs.DecimalDigits
import Mathlib.Data.Rat.Floor

/-
  This file proves which decimals plain numerals are read as.

  A numeral is a sign with digits before and after a point,
  and denotes a rational. What is read of it is that number,
  rounded half away from zero to the fraction digits that
  are kept. It is the number itself if all digits fit.

  Key definitions include:
    * `Decimal.value`
    * `Decimal.Numeral.Writes`
    * `Decimal.Numeral.value`
    * `Decimal.CutShort`
    * `Decimal.roundHalfAway`

  Main statements:
    * `Decimal.Numeral.Writes.ofPlain?_of_fits`
    * `Decimal.exists_writes_of_ofPlain?`
    * `Decimal.value_of_keeps`
-/

------------------------------------------------------------
-- Numerals
------------------------------------------------------------

namespace Criteria

namespace Decimal

/- A sign with the digits before and after a point. -/
structure Numeral where
  negative : Bool
  whole : List Char
  fraction : List Char

/- The number of all digits, without the point. -/
def Numeral.digits (n : Numeral) : Nat :=
  Nat.ofDigitChars 10 (n.whole ++ n.fraction) 0

/- A text writes a numeral, with a sign or without. -/
inductive Numeral.Writes :
    Numeral → List Char → Prop where
  | minus
      {text whole fraction : List Char}
      (hText : Unsigned false false text whole fraction) :
      Writes ⟨true, whole, fraction⟩ ('-' :: text)
  | plus
      {text whole fraction : List Char}
      (hText : Unsigned false false text whole fraction) :
      Writes ⟨false, whole, fraction⟩ ('+' :: text)
  | bare
      {text whole fraction : List Char}
      (hText : Unsigned false false text whole fraction) :
      Writes ⟨false, whole, fraction⟩ text

/-
  A text goes on with an underscore after all the fraction
  digits there is room for, and the digits so far, without
  the last one, form a small number.
-/
def CutShort
    (text : List Char)
    (n : Numeral) : Prop :=
  ∃ before after, text = before ++ '_' :: after ∧
    n.Writes before ∧ n.fraction.length = mostScale ∧
    n.digits / 10 < (2 ^ 64 - 1) / 10 - 255

------------------------------------------------------------
-- Rational Values
------------------------------------------------------------

/- A number with its sign. -/
def signed
    (negative : Bool)
    (x : ℚ) : ℚ :=
  if negative then -x else x

def value (d : Decimal) : ℚ :=
  signed d.negative (d.coefficient / 10 ^ d.scale)

def Numeral.value (n : Numeral) : ℚ :=
  signed n.negative (n.digits / 10 ^ n.fraction.length)

/-
  The nearest number with so many fraction digits, and of two
  the one that is farther from zero.
-/
def roundHalfAway
    (scale : Nat)
    (x : ℚ) : ℚ :=
  signed (x < 0) (round (|x| * 10 ^ scale) / 10 ^ scale)

@[simp] theorem abs_signed
    (negative : Bool)
    (x : ℚ) : |signed negative x| = |x| := by
  cases negative with
  | false => rfl
  | true => exact abs_neg x

theorem signed_sub
    (negative : Bool)
    (x y : ℚ) :
    signed negative x - signed negative y =
      signed negative (x - y) := by
  cases negative with
  | false => rfl
  | true =>
      simp only [signed, if_true]
      ring

theorem signed_mul
    (negative : Bool)
    (x y : ℚ) :
    signed negative (x * y) = signed negative x * y := by
  cases negative with
  | false => rfl
  | true =>
      simp only [signed, if_true]
      ring

@[simp] theorem signed_zero (negative : Bool) :
    signed negative 0 = 0 := by
  cases negative with
  | false => rfl
  | true => exact neg_zero

/- The sign of a positive number can be told from it. -/
theorem signed_lt_zero
    {x : ℚ}
    (hPositive : 0 < x)
    (negative : Bool) :
    decide (signed negative x < 0) = negative := by
  cases negative with
  | false =>
      simp only [signed, Bool.false_eq_true, if_false]
      exact decide_eq_false (not_lt.mpr hPositive.le)
  | true =>
      simp only [signed, if_true]
      exact decide_eq_true (neg_lt_zero.mpr hPositive)

theorem dropDigits_of_zero (count : Nat) :
    dropDigits 0 count = 0 := by
  have hPower : 0 < 10 ^ count := Nat.pow_pos (by decide)
  simp only [dropDigits, Nat.pow_eq]
  apply Nat.div_eq_of_lt
  omega

/- Dropping digits rounds the quotient. -/
theorem dropDigits_eq_round (n count : Nat) :
    (dropDigits n count : ℤ) =
      round ((n : ℚ) / 10 ^ count) := by
  have hPower : (10 : ℚ) ^ count ≠ 0 := by positivity
  have hQuotient :
      (n : ℚ) / 10 ^ count + 1 / 2 =
        ((2 * n + 10 ^ count : Nat) : ℚ) /
          ((2 * 10 ^ count : Nat) : ℚ) := by
    push_cast
    field_simp
  rw [round_eq, hQuotient, Rat.floor_natCast_div_natCast]
  rfl

/- A sign that only zero loses does not change the value. -/
theorem value_eq_signed
    {d : Decimal}
    {negative : Bool}
    (hSign : d.negative = (negative && d.coefficient ≠ 0)) :
    d.value =
      signed negative (d.coefficient / 10 ^ d.scale) := by
  rw [value, hSign]
  by_cases hZero : d.coefficient = 0
  · simp [hZero]
  · simp [hZero]

/- A numeral rounds at a scale as its digits do. -/
theorem round_abs_value
    {n : Numeral}
    {scale dropped : Nat}
    (hLength : scale + dropped = n.fraction.length) :
    (round (|n.value| * 10 ^ scale) : ℚ) =
      dropDigits n.digits dropped := by
  have hScaled :
      |n.value| * 10 ^ scale = n.digits / 10 ^ dropped := by
    rw [Numeral.value, abs_signed, ← hLength, pow_add]
    rw [abs_of_nonneg (by positivity)]
    field_simp
  rw [hScaled, ← dropDigits_eq_round]
  rfl

/- Kept digits are the number, rounded at their scale. -/
theorem value_of_keeps
    {d : Decimal}
    {n : Numeral}
    (hSign :
      d.negative = (n.negative && d.coefficient ≠ 0))
    (hKeeps :
      Keeps n.digits n.fraction.length d.coefficient
        d.scale) :
    d.value = roundHalfAway d.scale n.value := by
  rcases hKeeps with ⟨dropped, hLength, hRound, _⟩
  rw [value_eq_signed hSign, roundHalfAway,
    round_abs_value hLength, ← hRound]
  by_cases hZero : d.coefficient = 0
  · simp [hZero]
  · have hDigits : 0 < n.digits := by
      apply Nat.pos_of_ne_zero
      intro hNone
      rw [hNone, dropDigits_of_zero] at hRound
      exact hZero hRound
    have hPositive :
        0 < (n.digits : ℚ) / 10 ^ n.fraction.length := by
      positivity
    rw [Numeral.value, signed_lt_zero hPositive]

/- With one more fraction digit the number has no room. -/
theorem bound_le_of_keeps
    {d : Decimal}
    {n : Numeral}
    {scale : Nat}
    (hKeeps :
      Keeps n.digits n.fraction.length d.coefficient
        d.scale)
    (hMore : d.scale < scale)
    (hMost : scale ≤ mostScale)
    (hLength : scale ≤ n.fraction.length) :
    coefficientBound ≤
      |roundHalfAway scale n.value| * 10 ^ scale := by
  rcases hKeeps with ⟨dropped, hDropped, _, hFull⟩
  have hFewer :
      scale + (n.fraction.length - scale) =
        n.fraction.length := by
    omega
  have hBound :=
    hFull (n.fraction.length - scale) (by omega) (by omega)
  generalize n.fraction.length - scale = fewer
    at hFewer hBound
  rw [roundHalfAway, round_abs_value hFewer, abs_signed,
    abs_of_nonneg (by positivity),
    div_mul_cancel₀ _ (by positivity)]
  exact_mod_cast hBound

theorem signed_abs (x : ℚ) : signed (x < 0) |x| = x := by
  by_cases hSign : x < 0
  · simp [signed, hSign, abs_of_neg]
  · simp [signed, hSign, abs_of_nonneg (not_lt.mp hSign)]

/- Rounding moves a number by half a unit at most. -/
theorem abs_roundHalfAway_sub_le
    (scale : Nat)
    (x : ℚ) :
    |roundHalfAway scale x - x| * 10 ^ scale ≤ 1 / 2 := by
  have hPower : (0 : ℚ) < 10 ^ scale := by positivity
  have hNearest := abs_sub_round (|x| * 10 ^ scale)
  calc
    |roundHalfAway scale x - x| * 10 ^ scale
        = |roundHalfAway scale x -
            (signed (x < 0) (|x|))| * 10 ^ scale := by
          rw [signed_abs]
    _ = |round (|x| * 10 ^ scale) / 10 ^ scale - (|x|)| *
          10 ^ scale := by
          rw [roundHalfAway, signed_sub, abs_signed]
    _ = |(round (|x| * 10 ^ scale) / 10 ^ scale - (|x|)) *
          10 ^ scale| := by
          rw [abs_mul, abs_of_pos hPower]
    _ = |(round (|x| * 10 ^ scale) : ℚ) -
          (|x|) * 10 ^ scale| := by
          rw [sub_mul, div_mul_cancel₀ _ hPower.ne']
    _ ≤ 1 / 2 := by
          rw [abs_sub_comm]
          exact hNearest

------------------------------------------------------------
-- Texts of Numerals
------------------------------------------------------------

theorem ofParts?_eq_some_iff
    {negative : Bool}
    {coefficient scale : Nat}
    {d : Decimal} :
    ofParts? negative coefficient scale = some d ↔
      d.negative = negative ∧ d.coefficient = coefficient ∧
        d.scale = scale := by
  unfold ofParts?
  constructor
  · intro hParts
    split at hParts
    · cases hParts
      exact ⟨rfl, rfl, rfl⟩
    · cases hParts
  · intro hParts
    rcases hParts with ⟨hSign, hSame, hScale⟩
    subst hSign hSame hScale
    rw [dif_pos ⟨d.coefficient_lt, d.scale_le⟩]

/- The sign of a text, and what comes after it. -/
theorem splitSign_cases (text : List Char) :
    (∃ rest, text = '-' :: rest ∧
        splitSign text = (true, rest)) ∨
      (∃ rest, text = '+' :: rest ∧
        splitSign text = (false, rest)) ∨
      splitSign text = (false, text) := by
  unfold splitSign
  split
  · rename_i rest
    exact .inl ⟨rest, rfl, rfl⟩
  · rename_i rest
    exact .inr (.inl ⟨rest, rfl, rfl⟩)
  · exact .inr (.inr rfl)

theorem splitSign_append
    (before after : List Char) :
    splitSign (before ++ '_' :: after) =
      ((splitSign before).1,
        (splitSign before).2 ++ '_' :: after) := by
  cases before with
  | nil => rfl
  | cons c before =>
      by_cases hMinus : c = '-'
      · subst hMinus
        rfl
      · by_cases hPlus : c = '+'
        · subst hPlus
          rfl
        · simp [splitSign, hMinus, hPlus]

/- A sign is no part of an unsigned number. -/
theorem Unsigned.splitSign
    {text whole fraction : List Char}
    (hText : Unsigned false false text whole fraction) :
    splitSign text = (false, text) := by
  rcases splitSign_cases text with
    ⟨rest, hRest, _⟩ | ⟨rest, hRest, _⟩ | hSplit
  · subst hRest
    cases hText with
    | whole hDigit => cases hDigit
  · subst hRest
    cases hText with
    | whole hDigit => cases hDigit
  · exact hSplit

/- A numeral is written as its sign and an unsigned one. -/
theorem Numeral.writes_iff
    {n : Numeral}
    {text : List Char} :
    n.Writes text ↔
      (splitSign text).1 = n.negative ∧
        Unsigned false false (splitSign text).2 n.whole
          n.fraction := by
  constructor
  · intro hWrites
    cases hWrites with
    | minus hText => exact ⟨rfl, hText⟩
    | plus hText => exact ⟨rfl, hText⟩
    | bare hText =>
        rw [hText.splitSign]
        exact ⟨rfl, hText⟩
  · intro hSigned
    rcases hSigned with ⟨hSign, hText⟩
    rcases n with ⟨negative, whole, fraction⟩
    dsimp only at hSign hText
    subst hSign
    rcases splitSign_cases text with
      ⟨rest, hRest, hSplit⟩ | ⟨rest, hRest, hSplit⟩ | hSplit
    · rw [hSplit] at hText ⊢
      rw [hRest]
      exact .minus hText
    · rw [hSplit] at hText ⊢
      rw [hRest]
      exact .plus hText
    · rw [hSplit] at hText ⊢
      exact .bare hText

/- A text writes at most one numeral. -/
theorem Numeral.Writes.unique
    {n m : Numeral}
    {text : List Char}
    (hWrites : n.Writes text)
    (hOther : m.Writes text) : n = m := by
  rw [Numeral.writes_iff] at hWrites hOther
  rcases n with ⟨negative, whole, fraction⟩
  rcases m with ⟨sign, other, more⟩
  have hSign : negative = sign :=
    hWrites.1.symm.trans hOther.1
  rcases hWrites.2.functional hOther.2 with
    ⟨hWhole, hFraction⟩
  dsimp only at hWhole hFraction
  rw [hSign, hWhole, hFraction]

theorem adds_of_writes
    {n : Numeral}
    {text : List Char}
    (hWrites : n.Writes text) :
    Progress.start.Adds (splitSign text).2 n.digits
      n.fraction.length := by
  refine ⟨n.whole, n.fraction,
    (Numeral.writes_iff.mp hWrites).2, rfl, ?_⟩
  exact (Nat.zero_add _).symm

/- Digits are cut short after the sign as in the text. -/
theorem CutShort.unsigned
    {text : List Char}
    {n : Numeral}
    (hCut : CutShort text n) :
    Progress.start.CutShort (splitSign text).2 n.digits := by
  rcases hCut with
    ⟨before, after, hText, hWrites, hLength, hSmall⟩
  refine ⟨(splitSign before).2, after, ?_, ?_, hSmall⟩
  · rw [hText, splitSign_append]
  · rw [← hLength]
    exact adds_of_writes hWrites

theorem exists_cutShort_of_unsigned
    {text : List Char}
    {coefficient : Nat}
    (hCut :
      Progress.start.CutShort (splitSign text).2
        coefficient) :
    ∃ n, CutShort text n := by
  rcases hCut with ⟨before, after, hText, hAdds, hSmall⟩
  rcases hAdds with
    ⟨whole, fraction, hBefore, hDigits, hLength⟩
  have hFraction : fraction.length = mostScale := by
    rw [hLength]
    exact (Nat.zero_add _).symm
  rw [hDigits] at hSmall
  rcases splitSign_cases text with
    ⟨rest, hRest, hSplit⟩ | ⟨rest, hRest, hSplit⟩ | hSplit
  · rw [hSplit] at hText
    refine ⟨⟨true, whole, fraction⟩, '-' :: before, after,
      ?_, .minus hBefore, hFraction, hSmall⟩
    rw [hRest, List.cons_append, ← hText]
  · rw [hSplit] at hText
    refine ⟨⟨false, whole, fraction⟩, '+' :: before, after,
      ?_, .plus hBefore, hFraction, hSmall⟩
    rw [hRest, List.cons_append, ← hText]
  · rw [hSplit] at hText
    exact ⟨⟨false, whole, fraction⟩, before, after, hText,
      .bare hBefore, hFraction, hSmall⟩

/- Digits with a digit before the point write themselves. -/
theorem Unsigned.ofDigits
    {c : Char}
    {whole : List Char}
    (hAll : Digits.All (c :: whole)) :
    Unsigned false false (c :: whole) (c :: whole) [] := by
  rw [Digits.all_cons_iff] at hAll
  apply Unsigned.whole hAll.1
  simpa using Unsigned.nil.wholes hAll.2

theorem Unsigned.ofPoint
    {c : Char}
    {whole fraction : List Char}
    (hAll : Digits.All (c :: whole))
    (hFraction : Digits.All fraction) :
    Unsigned false false (c :: whole ++ '.' :: fraction)
      (c :: whole) fraction := by
  rw [Digits.all_cons_iff] at hAll
  apply Unsigned.whole hAll.1
  have hPoint := Unsigned.nil.fractions hFraction
  simpa using hPoint.point.wholes hAll.2

------------------------------------------------------------
-- Plain Decimals
------------------------------------------------------------

theorem ofPlain?_eq_some_iff
    {text : List Char}
    {d : Decimal} :
    ofPlain? text = some d ↔
      ∃ p, scan? (splitSign text).2 .start = some p ∧
        d.negative =
          ((splitSign text).1 && p.coefficient ≠ 0) ∧
        d.coefficient = p.coefficient ∧
        d.scale = p.scale := by
  unfold ofPlain?
  simp only [Option.bind_eq_bind, Option.bind_eq_some_iff,
    ofParts?_eq_some_iff]

/- A numeral whose digits fit is read as it is. -/
theorem Numeral.Writes.ofPlain?_of_fits
    {n : Numeral}
    {text : List Char}
    (hWrites : n.Writes text)
    (hFits : n.digits < coefficientBound)
    (hLength : n.fraction.length ≤ mostScale) :
    ∃ d, ofPlain? text = some d ∧
      d.negative = (n.negative && n.digits ≠ 0) ∧
      d.coefficient = n.digits ∧
      d.scale = n.fraction.length := by
  rcases Progress.scan?_of_fits (adds_of_writes hWrites)
    Progress.consistent_start hFits hLength with
    ⟨p, hScan, hSame, hScale⟩
  let d : Decimal :=
    ⟨n.negative && n.digits ≠ 0, n.digits,
      n.fraction.length, hFits, hLength⟩
  refine ⟨d, ?_, rfl, rfl, rfl⟩
  rw [ofPlain?_eq_some_iff]
  refine ⟨p, hScan, ?_, hSame.symm, hScale.symm⟩
  rw [(Numeral.writes_iff.mp hWrites).1, hSame]

/-
  What is read as a plain decimal writes a numeral, and its
  digits are kept, if they are not cut short.
-/
theorem exists_writes_of_ofPlain?
    {text : List Char}
    {d : Decimal}
    (hPlain : ofPlain? text = some d) :
    ∃ n : Numeral, n.Writes text ∧
      d.negative = (n.negative && d.coefficient ≠ 0) ∧
      (Keeps n.digits n.fraction.length d.coefficient
          d.scale ∨
        ∃ m, CutShort text m) := by
  rw [ofPlain?_eq_some_iff] at hPlain
  rcases hPlain with ⟨p, hScan, hSign, hSame, hScale⟩
  rcases (Progress.reads_of_scan? hScan).keeps_or_cutShort
    Progress.consistent_start (by decide) with
    ⟨digits, length, hAdds, hResult⟩
  rcases hAdds with ⟨whole, fraction, hText, hDigits, hLength⟩
  refine ⟨⟨(splitSign text).1, whole, fraction⟩, ?_, ?_, ?_⟩
  · exact Numeral.writes_iff.mpr ⟨rfl, hText⟩
  · rw [hSign, hSame]
  · rcases hResult with hKeeps | hCut
    · left
      rw [hSame, hScale]
      rw [hDigits, hLength] at hKeeps
      simpa [Progress.start, Numeral.digits] using hKeeps
    · exact .inr (exists_cutShort_of_unsigned hCut)

/- Digits that are cut short are read as they are. -/
theorem CutShort.eq_of_ofPlain?
    {text : List Char}
    {n : Numeral}
    {d : Decimal}
    (hCut : CutShort text n)
    (hPlain : ofPlain? text = some d) :
    d.coefficient = n.digits ∧ d.scale = mostScale := by
  rw [ofPlain?_eq_some_iff] at hPlain
  rcases hPlain with ⟨p, hScan, _, hSame, hScale⟩
  rw [hSame, hScale]
  exact Progress.eq_of_cutShort hCut.unsigned
    Progress.consistent_start hScan

end Decimal

end Criteria
