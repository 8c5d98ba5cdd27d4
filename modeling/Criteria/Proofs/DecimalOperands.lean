import Criteria.Json.Printer
import Criteria.Proofs.ScientificDecimals
import Criteria.Proofs.TextOperands

/-
  This file proves which number the decimal of an operand is.

  An operand in plain notation becomes the number that its
  text denotes, rounded half away from zero to the scale of
  the result, and that number itself if its digits fit. Only
  digits that an underscore cuts short are not rounded. In
  scientific notation the result is less than one unit of its
  last place away.

  Key definitions include:
    * `Decimal.Represents`

  Main statements:
    * `Coercion.decimal_value`
    * `Coercion.decimal_not_rounded`
-/

------------------------------------------------------------
-- Represented Numbers
------------------------------------------------------------

namespace Criteria

namespace Decimal

/-
  A decimal has the number that a text denotes, as far as it
  has digits for it.
-/
structure Represents
    (d : Decimal)
    (text : List Char) : Prop where
  written :
    (∃ n : Numeral, n.Writes text) ∨
      ∃ (n : Numeral) (exponent : ℤ),
        n.WritesScaled exponent text
  rounded (n : Numeral) :
    n.Writes text → (¬ ∃ m, CutShort text m) →
      d.value = roundHalfAway d.scale n.value
  full (n : Numeral) :
    n.Writes text → (¬ ∃ m, CutShort text m) →
      ∀ scale, d.scale < scale → scale ≤ 28 →
        scale ≤ n.fraction.length →
          2 ^ 96 ≤ |roundHalfAway scale n.value| * 10 ^ scale
  exact (n : Numeral) :
    n.Writes text → n.digits < 2 ^ 96 →
      n.fraction.length ≤ 28 →
        d.value = n.value ∧ d.scale = n.fraction.length
  cutShort (n m : Numeral) :
    n.Writes text → CutShort text m →
      d.value = m.value ∧ d.scale = 28
  near (n : Numeral) (exponent : ℤ) :
    n.WritesScaled exponent text →
      |d.value - n.value * 10 ^ exponent| <
        1 / 10 ^ d.scale

/- Digits that fit are all there. -/
theorem Numeral.Writes.exact_of_fits
    {n : Numeral}
    {text : List Char}
    (hWrites : n.Writes text)
    (hFits : n.digits < 2 ^ 96)
    (hLength : n.fraction.length ≤ 28) :
    ∃ d : Decimal, ofPlain? text = some d ∧
      d.value = n.value ∧ d.scale = n.fraction.length := by
  rcases hWrites.ofPlain?_of_fits hFits hLength with
    ⟨d, hPlain, hSign, hSame, hScale⟩
  refine ⟨d, hPlain, ?_, hScale⟩
  rw [← hSame] at hSign
  rw [value_eq_signed hSign, hSame, hScale, Numeral.value]

theorem CutShort.value_eq
    {text : List Char}
    {m : Numeral}
    {d : Decimal}
    (hCut : CutShort text m)
    (hPlain : ofPlain? text = some d) :
    d.value = m.value ∧ d.scale = 28 := by
  rcases hCut.eq_of_ofPlain? hPlain with ⟨hSame, hScale⟩
  rcases exists_writes_of_ofPlain? hPlain with
    ⟨n, hWrites, hSign, _⟩
  rw [(hCut.numeral hWrites).1] at hSign
  rcases hCut with ⟨_, _, _, _, hLength, _⟩
  refine ⟨?_, hScale⟩
  rw [value_eq_signed hSign, hSame, hScale, Numeral.value,
    hLength]

/- What a text is read as has the number of the text. -/
theorem represents_of_ofChars?
    {text : List Char}
    {d : Decimal}
    (hRead : ofChars? text = some d) : d.Represents text := by
  unfold ofChars? at hRead
  rcases Option.or_eq_some_iff.mp hRead with
    hPlain | ⟨hNone, hScientific⟩
  · rcases exists_writes_of_ofPlain? hPlain with
      ⟨n, hWrites, hSign, hResult⟩
    constructor
    case written => exact .inl ⟨n, hWrites⟩
    case rounded =>
      intro m hOther hWhole
      have hSame := hOther.unique hWrites
      subst hSame
      rcases hResult with hKeeps | hCut
      · exact value_of_keeps hSign hKeeps
      · exact absurd hCut hWhole
    case full =>
      intro m hOther hWhole scale hMore hMost hLength
      have hSame := hOther.unique hWrites
      subst hSame
      rcases hResult with hKeeps | hCut
      · have hBound :=
          bound_le_of_keeps hKeeps hMore hMost hLength
        have hTwo : (coefficientBound : ℚ) = 2 ^ 96 := by
          norm_num [coefficientBound]
        rw [← hTwo]
        exact hBound
      · exact absurd hCut hWhole
    case exact =>
      intro m hOther hFits hLength
      rcases hOther.exact_of_fits hFits hLength with
        ⟨other, hExact, hValue, hScale⟩
      rw [hPlain] at hExact
      cases hExact
      exact ⟨hValue, hScale⟩
    case cutShort =>
      intro _ m _ hCut
      exact hCut.value_eq hPlain
    case near =>
      intro m exponent hScaled
      exact absurd hWrites hScaled.not_writes
  · rcases exists_writesScaled_of_ofScientific? hScientific
      with ⟨n, exponent, hScaled⟩
    constructor
    case written => exact .inr ⟨n, exponent, hScaled⟩
    case rounded =>
      intro m hWrites
      exact absurd hWrites hScaled.not_writes
    case full =>
      intro m hWrites
      exact absurd hWrites hScaled.not_writes
    case exact =>
      intro m hWrites
      exact absurd hWrites hScaled.not_writes
    case cutShort =>
      intro m _ hWrites
      exact absurd hWrites hScaled.not_writes
    case near =>
      intro m exponent hScaled
      rw [lt_div_iff₀ (by positivity)]
      exact near_of_ofScientific? hScaled hScientific

/- An integer is written as its digits after its sign. -/
theorem writes_integerChars (i : Int) :
    Numeral.Writes
      ⟨i < 0, Nat.toDigits 10 i.natAbs, []⟩
      (Number.integerChars i) := by
  have hAll := Digits.all_toDigits i.natAbs
  have hSome : Nat.toDigits 10 i.natAbs ≠ [] :=
    Nat.toDigits_ne_nil
  unfold Number.integerChars
  generalize Nat.toDigits 10 i.natAbs = digits at *
  cases digits with
  | nil => exact absurd rfl hSome
  | cons c digits =>
      by_cases hSign : i < 0
      · simp only [hSign, if_true, decide_true]
        exact .minus (Unsigned.ofDigits hAll)
      · simp only [hSign, if_false, decide_false]
        exact .bare (Unsigned.ofDigits hAll)

/- An integer that fits is read as itself, without a scale. -/
theorem ofPlain?_integerChars
    {i : Int}
    (hFits : i.natAbs < 2 ^ 96) :
    ∃ d : Decimal,
      ofPlain? (Number.integerChars i) = some d ∧
        d.value = i ∧ d.scale = 0 := by
  have hDigits :
      Nat.ofDigitChars 10
        (Nat.toDigits 10 i.natAbs ++ []) 0 = i.natAbs := by
    rw [List.append_nil]
    exact Nat.ofDigitChars_ten_toDigits
  rcases (writes_integerChars i).exact_of_fits
    (by rw [Numeral.digits, hDigits]; exact hFits)
    (Nat.zero_le _) with ⟨d, hPlain, hValue, hScale⟩
  refine ⟨d, hPlain, ?_, hScale⟩
  rw [hValue, Numeral.value, Numeral.digits, hDigits,
    List.length_nil, pow_zero, div_one]
  by_cases hSign : i < 0
  · simp [signed, hSign, Nat.cast_natAbs, abs_of_neg]
  · simp [signed, hSign, Nat.cast_natAbs,
      abs_of_nonneg (Int.not_lt.mp hSign)]

end Decimal

------------------------------------------------------------
-- Operands
------------------------------------------------------------

namespace Coercion

open Decimal

theorem scalar_decimal_eq_ok_iff
    {op : String}
    {operand : Json}
    {value : Value} :
    scalar op .decimal operand = .ok value ↔
      ∃ text d, operand.readText? .decimal = some text ∧
        ofChars? text = some d ∧ value = .decimal d := by
  rw [scalar_eq_ok_iff_read .decimal]
  simp only [Kind.read?, Option.map_eq_some_iff]
  constructor
  · intro hRead
    rcases hRead with ⟨text, hText, d, hChars, hValue⟩
    exact ⟨text, d, hText, hChars, hValue.symm⟩
  · intro hRead
    rcases hRead with ⟨text, d, hText, hChars, hValue⟩
    exact ⟨text, hText, d, hChars, hValue.symm⟩

theorem scalar_of_ofPlain?
    {op : String}
    {operand : Json}
    {text : List Char}
    {d : Decimal}
    (hText : operand.readText? .decimal = some text)
    (hPlain : ofPlain? text = some d) :
    scalar op .decimal operand = .ok (.decimal d) := by
  rw [scalar_decimal_eq_ok_iff]
  refine ⟨text, d, hText, ?_, rfl⟩
  rw [ofChars?, hPlain, Option.some_or]

/-
  Every decimal that an operand is read as has the number of
  its text. A numeral whose digits fit is always read, and so
  is an integer, as itself.
-/
theorem decimal_value
    (op : String)
    (operand : Json) :
    (∀ value, scalar op .decimal operand = .ok value →
      ∃ text d, operand.readText? .decimal = some text ∧
        value = .decimal d ∧ d.coefficient < 2 ^ 96 ∧
        d.scale ≤ 28 ∧ d.Represents text) ∧
    (∀ text (n : Numeral),
      operand.readText? .decimal = some text →
        n.Writes text → n.digits < 2 ^ 96 →
          n.fraction.length ≤ 28 →
            ∃ d : Decimal,
              scalar op .decimal operand =
                  .ok (.decimal d) ∧
                d.value = n.value ∧
                d.scale = n.fraction.length) ∧
    (∀ i : Int, operand = .number (.integer i) →
      i.natAbs < 2 ^ 96 →
        ∃ d : Decimal,
          scalar op .decimal operand = .ok (.decimal d) ∧
            d.value = i ∧ d.scale = 0) := by
  refine ⟨?_, ?_, ?_⟩
  · intro value hScalar
    rw [scalar_decimal_eq_ok_iff] at hScalar
    rcases hScalar with ⟨text, d, hText, hRead, hValue⟩
    exact ⟨text, d, hText, hValue, d.coefficient_lt,
      d.scale_le, represents_of_ofChars? hRead⟩
  · intro text n hText hWrites hFits hLength
    rcases hWrites.exact_of_fits hFits hLength with
      ⟨d, hPlain, hExact⟩
    exact ⟨d, scalar_of_ofPlain? hText hPlain, hExact⟩
  · intro i hOperand hFits
    subst hOperand
    rcases ofPlain?_integerChars hFits with
      ⟨d, hPlain, hExact⟩
    exact ⟨d, scalar_of_ofPlain? rfl hPlain, hExact⟩

/- A half of the last place, and the largest coefficients. -/
theorem decimal_value_atLimits :
    (∃ d : Decimal,
      scalar "gt" .decimal
          (.string "-0.00000000000000000000000000005") =
        .ok (.decimal d) ∧
      d.Represents
        "-0.00000000000000000000000000005".toList) ∧
    (∃ d : Decimal,
      scalar "gt" .decimal
          (.string "+7922816251426433759354395033.5") =
        .ok (.decimal d) ∧
      d.value = 79228162514264337593543950335 / 10 ∧
      d.scale = 1) ∧
    (∃ d : Decimal,
      scalar "gt" .decimal
          (.number (.integer (-79228162514264337593543950335)))
          = .ok (.decimal d) ∧
      d.value = -79228162514264337593543950335 ∧
      d.scale = 0) := by
  refine ⟨?_, ?_, ?_⟩
  · rcases (decimal_value "gt" _).1
      (.decimal ⟨true, 1, 28, by decide, by decide⟩)
      (show scalar "gt" .decimal
        (.string "-0.00000000000000000000000000005") = _
        by rfl) with ⟨text, d, hText, hValue, _, _, hNumber⟩
    cases hText
    cases hValue
    exact ⟨_, rfl, hNumber⟩
  · let n : Numeral :=
      ⟨false, "7922816251426433759354395033".toList, ['5']⟩
    have hDigits :
        n.digits = 79228162514264337593543950335 := by
      decide
    have hWrites :
        n.Writes
          "+7922816251426433759354395033.5".toList := by
      apply Numeral.Writes.plus
      exact @Unsigned.ofPoint '7'
        "922816251426433759354395033".toList ['5']
        (by decide)
        (by decide)
    rcases (decimal_value "gt" _).2.1 _ n
      (show Json.readText? .decimal
        (.string "+7922816251426433759354395033.5") = _
        from rfl)
      hWrites (by rw [hDigits]; decide) (by decide) with
      ⟨d, hScalar, hValue, hScale⟩
    refine ⟨d, hScalar, ?_, hScale⟩
    rw [hValue, Numeral.value, hDigits]
    norm_num [n, signed]
  · rcases (decimal_value "gt" _).2.2
      (-79228162514264337593543950335) rfl (by decide) with
      ⟨d, hScalar, hValue, hScale⟩
    refine ⟨d, hScalar, ?_, hScale⟩
    rw [hValue]
    norm_num

/-
  After all fraction digits an underscore keeps a nine from
  being rounded up.
-/
theorem decimal_not_rounded :
    ∃ (n : Numeral) (d : Decimal),
      n.Writes "0.0000000000000000000000000001_9".toList ∧
      scalar "gt" .decimal
          (.string "0.0000000000000000000000000001_9") =
        .ok (.decimal d) ∧
      d.value ≠ roundHalfAway d.scale n.value := by
  have hNine : Unsigned true true ['_', '9'] [] ['9'] :=
    .underscore (.fraction rfl .nil)
  have hFraction :=
    (@Unsigned.fractions
      "0000000000000000000000000001".toList _ _
      (by decide) hNine).point
  refine ⟨⟨false, ['0'],
      "00000000000000000000000000019".toList⟩,
    ⟨false, 1, 28, by decide, by decide⟩,
    .bare (.whole rfl hFraction), rfl, ?_⟩
  have hDigits :
      Nat.ofDigitChars 10
        (['0'] ++ "00000000000000000000000000019".toList) 0 =
        19 := by
    decide
  have hLength :
      "00000000000000000000000000019".toList.length = 29 := by
    decide
  simp only [value, Numeral.value, Numeral.digits, hDigits,
    hLength]
  norm_num [roundHalfAway, signed, round_eq]

end Coercion

end Criteria
