import Criteria.Proofs.DecimalNumerals

/-
  This file proves which decimals scientific notation is read
  as.

  The number before the mark is read as a plain decimal, and
  its point is moved by the number after it. Both may round.
  Together they stay within one unit of the last place of
  the number that the text denotes.

  Key definitions include:
    * `Decimal.WritesCount`
    * `Decimal.WritesExponent`
    * `Decimal.Numeral.WritesScaled`

  Main statements:
    * `Decimal.near_of_ofPlain?`
    * `Decimal.near_of_ofScientific?`
    * `Decimal.exists_writesScaled_of_ofScientific?`
-/

------------------------------------------------------------
-- Scientific Notation
------------------------------------------------------------

namespace Criteria

namespace Decimal

/- Digits, after a plus sign or not, write their number. -/
inductive WritesCount : Nat → List Char → Prop where
  | plus
      {digits : List Char}
      (hSome : digits ≠ [])
      (hAll : Digits.All digits) :
      WritesCount (Nat.ofDigitChars 10 digits 0)
        ('+' :: digits)
  | bare
      {digits : List Char}
      (hSome : digits ≠ [])
      (hAll : Digits.All digits) :
      WritesCount (Nat.ofDigitChars 10 digits 0) digits

inductive WritesExponent : ℤ → List Char → Prop where
  | minus
      {n : Nat}
      {text : List Char}
      (hText : WritesCount n text) :
      WritesExponent (-n) ('-' :: text)
  | bare
      {n : Nat}
      {text : List Char}
      (hText : WritesCount n text) :
      WritesExponent n text

/- A text writes a numeral times a power of ten. -/
def Numeral.WritesScaled
    (n : Numeral)
    (exponent : ℤ)
    (text : List Char) : Prop :=
  ∃ base mark rest, text = base ++ mark :: rest ∧
    n.Writes base ∧ isExponentMark mark = true ∧
    WritesExponent exponent rest

theorem unsignedOf?_eq_some_iff
    {text : List Char}
    {n : Nat} :
    unsignedOf? text = some n ↔ WritesCount n text := by
  unfold unsignedOf?
  constructor
  · intro hCount
    dsimp only at hCount
    split at hCount
    · split at hCount
      · rename_i hDigits
        cases hCount
        exact .plus hDigits.1 (List.all_eq_true.mp hDigits.2)
      · cases hCount
    · split at hCount
      · rename_i hDigits
        cases hCount
        exact .bare hDigits.1 (List.all_eq_true.mp hDigits.2)
      · cases hCount
  · intro hCount
    cases hCount with
    | plus hSome hAll =>
        exact if_pos ⟨hSome, List.all_eq_true.mpr hAll⟩
    | bare hSome hAll =>
        dsimp only
        split
        · rename_i rest
          have hPlus := hAll '+' List.mem_cons_self
          cases hPlus
        · exact if_pos ⟨hSome, List.all_eq_true.mpr hAll⟩

theorem isExponentMark_of_isDigit
    {c : Char}
    (hDigit : c.isDigit = true) : isExponentMark c = false := by
  simp only [isExponentMark, Bool.or_eq_false_iff,
    decide_eq_false_iff_not]
  constructor
  · intro hSame
    subst hSame
    cases hDigit
  · intro hSame
    subst hSame
    cases hDigit

/- No digit, point or underscore marks an exponent. -/
theorem Unsigned.not_isExponentMark
    {afterPoint hasDigit : Bool}
    {text whole fraction : List Char}
    (hText :
      Unsigned afterPoint hasDigit text whole fraction) :
    ∀ c ∈ text, isExponentMark c = false := by
  induction hText with
  | nil =>
      intro c hIn
      cases hIn
  | whole hDigit _ ih =>
      exact List.forall_mem_cons.mpr
        ⟨isExponentMark_of_isDigit hDigit, ih⟩
  | fraction hDigit _ ih =>
      exact List.forall_mem_cons.mpr
        ⟨isExponentMark_of_isDigit hDigit, ih⟩
  | point _ ih => exact List.forall_mem_cons.mpr ⟨rfl, ih⟩
  | underscore _ ih =>
      exact List.forall_mem_cons.mpr ⟨rfl, ih⟩

theorem Numeral.Writes.not_isExponentMark
    {n : Numeral}
    {text : List Char}
    (hWrites : n.Writes text) :
    ∀ c ∈ text, isExponentMark c = false := by
  cases hWrites with
  | minus hText =>
      exact List.forall_mem_cons.mpr
        ⟨rfl, hText.not_isExponentMark⟩
  | plus hText =>
      exact List.forall_mem_cons.mpr
        ⟨rfl, hText.not_isExponentMark⟩
  | bare hText => exact hText.not_isExponentMark

/- Scientific notation is no plain numeral. -/
theorem Numeral.WritesScaled.not_writes
    {n m : Numeral}
    {exponent : ℤ}
    {text : List Char}
    (hScaled : n.WritesScaled exponent text) :
    ¬ m.Writes text := by
  intro hWrites
  rcases hScaled with ⟨base, mark, rest, rfl, _, hMark, _⟩
  have hNone := hWrites.not_isExponentMark mark
    (List.mem_append_right base List.mem_cons_self)
  rw [hMark] at hNone
  cases hNone

------------------------------------------------------------
-- Near Numbers
------------------------------------------------------------

/- More of a text only adds fraction digits after a point. -/
theorem Unsigned.append
    {afterPoint hasDigit : Bool}
    {before rest whole other fraction more : List Char}
    (hBefore :
      Unsigned afterPoint hasDigit before whole fraction)
    (hText :
      Unsigned afterPoint hasDigit (before ++ rest) other
        more)
    (hPoint : afterPoint = true ∨ fraction ≠ []) :
    other = whole ∧ ∃ last, more = fraction ++ last := by
  induction hBefore generalizing other more with
  | nil =>
      rcases hPoint with hPoint | hSome
      · subst hPoint
        exact ⟨hText.whole_eq_nil, more, rfl⟩
      · exact absurd rfl hSome
  | whole hDigit _ ih =>
      rcases hPoint with hPoint | hSome
      · cases hPoint
      · cases hText with
        | whole _ hRest =>
            rcases ih hRest (.inr hSome) with ⟨rfl, hLast⟩
            exact ⟨rfl, hLast⟩
        | point => cases hDigit
        | underscore => cases hDigit
  | fraction hDigit _ ih =>
      cases hText with
      | fraction _ hRest =>
          rcases ih hRest (.inl rfl) with ⟨_, last, rfl⟩
          exact ⟨rfl, last, rfl⟩
      | underscore => cases hDigit
  | point _ ih =>
      cases hText with
      | whole hDigit => cases hDigit
      | point hRest => exact ih hRest (.inl rfl)
  | underscore _ ih =>
      cases hText with
      | whole hDigit => cases hDigit
      | fraction hDigit => cases hDigit
      | underscore hRest => exact ih hRest hPoint

/- What is cut short is the start of the numeral. -/
theorem CutShort.numeral
    {text : List Char}
    {n m : Numeral}
    (hCut : CutShort text m)
    (hWrites : n.Writes text) :
    n.negative = m.negative ∧ n.whole = m.whole ∧
      ∃ last, n.fraction = m.fraction ++ last := by
  rcases hCut with
    ⟨before, after, hText, hBefore, hLength, _⟩
  subst hText
  rw [Numeral.writes_iff] at hBefore hWrites
  rw [splitSign_append] at hWrites
  refine ⟨hWrites.1.symm.trans hBefore.1, ?_⟩
  apply hBefore.2.append hWrites.2
  right
  intro hNone
  rw [hNone] at hLength
  cases hLength

/- More fraction digits add less than a unit of the last. -/
theorem abs_value_sub_lt
    {n m : Numeral}
    {last : List Char}
    (hAll : Digits.All last)
    (hSign : n.negative = m.negative)
    (hWhole : n.whole = m.whole)
    (hFraction : n.fraction = m.fraction ++ last) :
    |m.value - n.value| * 10 ^ m.fraction.length < 1 := by
  have hDigits :
      n.digits =
        10 ^ last.length * m.digits +
          Nat.ofDigitChars 10 last 0 := by
    rw [Numeral.digits, hWhole, hFraction,
      ← List.append_assoc, Nat.ofDigitChars_append,
      Nat.ofDigitChars_eq_ofDigitChars_zero]
    rfl
  have hLast := Digits.ofDigitChars_lt hAll
  generalize Nat.ofDigitChars 10 last 0 = rest at *
  have hDifference :
      m.digits / 10 ^ m.fraction.length -
          n.digits / 10 ^ n.fraction.length =
        -((rest : ℚ) / 10 ^ last.length /
          10 ^ m.fraction.length) := by
    rw [hDigits, hFraction, List.length_append, pow_add]
    push_cast
    field_simp
    ring
  have hRest : (rest : ℚ) < 10 ^ last.length := by
    exact_mod_cast hLast
  rw [Numeral.value, Numeral.value, hSign, signed_sub,
    abs_signed, hDifference, abs_neg,
    abs_of_nonneg (by positivity),
    div_mul_cancel₀ _ (by positivity)]
  rw [div_lt_one (by positivity)]
  exact hRest

/- Dropping a digit fewer keeps hardly more than ten times. -/
theorem dropDigits_le
    (n count : Nat) :
    dropDigits n count ≤
      10 * dropDigits n (count + 1) + 5 := by
  have hPower : 0 < 10 ^ count := Nat.pow_pos (by decide)
  simp only [dropDigits, Nat.pow_eq, pow_succ]
  generalize 10 ^ count = power at *
  have hNext :
      2 * n + power * 10 <
        2 * (power * 10) *
          ((2 * n + power * 10) / (2 * (power * 10)) + 1) :=
    Nat.lt_mul_div_succ _ (by omega)
  generalize (2 * n + power * 10) / (2 * (power * 10)) =
    kept at *
  apply Nat.le_of_lt_succ
  rw [Nat.div_lt_iff_lt_mul (by omega)]
  nlinarith

/-
  What a plain numeral is read as is less than a unit of the
  last place away from it, and the number itself, if there is
  room for a further digit.
-/
theorem near_of_ofPlain?
    {n : Numeral}
    {text : List Char}
    {d : Decimal}
    (hWrites : n.Writes text)
    (hPlain : ofPlain? text = some d) :
    |d.value - n.value| * 10 ^ d.scale < 1 ∧
      (d.value = n.value ∨ d.scale = mostScale ∨
        coefficientBound ≤ d.coefficient * 10) := by
  rcases exists_writes_of_ofPlain? hPlain with
    ⟨m, hOther, hSign, hResult⟩
  have hSame := hOther.unique hWrites
  subst hSame
  rcases hResult with hKeeps | ⟨short, hCut⟩
  · constructor
    · rw [value_of_keeps hSign hKeeps]
      have hHalf := abs_roundHalfAway_sub_le d.scale m.value
      linarith
    · rcases hKeeps with ⟨dropped, hLength, hRound, hMost⟩
      cases dropped with
      | zero =>
          left
          rw [dropDigits_zero] at hRound
          rw [value_eq_signed hSign, hRound, Numeral.value,
            ← hLength, Nat.add_zero]
      | succ fewer =>
          right
          by_cases hScale : d.scale = mostScale
          · exact .inl hScale
          · right
            have hRoom := d.scale_le
            have hBound :=
              hMost fewer (Nat.lt_succ_self fewer)
                (by omega)
            have hStep := dropDigits_le m.digits fewer
            rw [← hRound] at hStep
            have hTwo :
                coefficientBound =
                  79228162514264337593543950336 := rfl
            omega
  · rcases hCut.eq_of_ofPlain? hPlain with ⟨hKept, hScale⟩
    rcases hCut.numeral hWrites with
      ⟨hNegative, hWhole, last, hFraction⟩
    refine ⟨?_, .inr (.inl hScale)⟩
    have hLength : short.fraction.length = mostScale := by
      rcases hCut with ⟨_, _, _, _, hLength, _⟩
      exact hLength
    have hShort : d.value = short.value := by
      rw [value_eq_signed hSign, hKept, Numeral.value,
        hScale, hLength, hNegative]
    have hAll : Digits.All last := by
      have hDigits :=
        (Numeral.writes_iff.mp hWrites).2.all_digits
      rw [hFraction, Digits.all_append_iff,
        Digits.all_append_iff] at hDigits
      exact hDigits.2.2
    rw [hShort, hScale, ← hLength]
    exact abs_value_sub_lt hAll hNegative hWhole hFraction

------------------------------------------------------------
-- Moved Points
------------------------------------------------------------

/- A point moved left moves far enough, or rounds. -/
theorem shiftLeft?_cases
    {d result : Decimal}
    {count : Nat}
    (hShift : d.shiftLeft? count = some result) :
    (result.value = d.value / 10 ^ count ∧
        result.scale = d.scale + count) ∨
      (|result.value - d.value / 10 ^ count| *
          10 ^ result.scale ≤ 1 / 2 ∧
        result.scale < d.scale + count) := by
  unfold shiftLeft? at hShift
  split at hShift
  · cases hShift
  · split at hShift
    · rw [ofParts?_eq_some_iff] at hShift
      rcases hShift with ⟨hSign, hSame, hScale⟩
      refine .inl ⟨?_, hScale⟩
      rw [value, value, hSign, hSame, hScale, pow_add,
        div_eq_mul_inv (signed _ _), ← signed_mul]
      congr 1
      field_simp
    · rename_i hFull
      rw [ofParts?_eq_some_iff] at hShift
      rcases hShift with ⟨hSign, hSame, hScale⟩
      refine .inr ⟨?_, by omega⟩
      have hDropped :
          d.scale + count =
            mostScale + (d.scale + count - mostScale) := by
        omega
      generalize d.scale + count - mostScale = dropped
        at hSame hDropped
      have hMoved :
          d.value / 10 ^ count =
            signed d.negative
              (d.coefficient / 10 ^ dropped /
                10 ^ mostScale) := by
        rw [value, div_eq_mul_inv, ← signed_mul,
          ← div_eq_mul_inv, div_div, ← pow_add, hDropped,
          pow_add, div_div, mul_comm]
      have hNearest :=
        abs_sub_round
          ((d.coefficient : ℚ) / 10 ^ dropped)
      rw [← dropDigits_eq_round, ← hSame, abs_sub_comm]
        at hNearest
      rw [hMoved, value, hSign, hScale, signed_sub, abs_signed,
        ← sub_div, abs_div,
        abs_of_pos (show (0 : ℚ) < 10 ^ mostScale by
          positivity),
        div_mul_cancel₀ _ (by positivity)]
      exact_mod_cast hNearest

/- A point moved right keeps all digits. -/
theorem shiftRight?_cases
    {d result : Decimal}
    {count : Nat}
    (hShift : d.shiftRight? count = some result) :
    result.value = d.value * 10 ^ count ∧
      (result.scale + count = d.scale ∨
        result.scale = 0 ∧ d.scale < mostScale ∧
          d.coefficient * 10 < coefficientBound) := by
  unfold shiftRight? at hShift
  split at hShift
  · rename_i hFew
    rw [ofParts?_eq_some_iff] at hShift
    rcases hShift with ⟨hSign, hSame, hScale⟩
    refine ⟨?_, .inl (by omega)⟩
    have hPower :
        (10 : ℚ) ^ d.scale =
          10 ^ result.scale * 10 ^ count := by
      rw [← pow_add]
      congr 1
      omega
    rw [value, value, hSign, hSame, ← signed_mul, hPower]
    congr 1
    field_simp
  · rename_i hMany
    split at hShift
    · cases hShift
    · rename_i hMost
      rw [ofParts?_eq_some_iff] at hShift
      rcases hShift with ⟨hSign, hSame, hScale⟩
      have hPower :
          (10 : ℚ) ^ count =
            10 ^ (count - d.scale) * 10 ^ d.scale := by
        rw [← pow_add]
        congr 1
        omega
      refine ⟨?_, .inr ⟨hScale, by omega, ?_⟩⟩
      · rw [value, value, hSign, hSame, hScale, ← signed_mul,
          hPower, Nat.pow_eq]
        congr 1
        push_cast
        field_simp
      · have hTen : 10 ^ 1 ≤ 10 ^ (count - d.scale) :=
          Nat.pow_le_pow_right (by decide) (by omega)
        have hLess := result.coefficient_lt
        rw [hSame, Nat.pow_eq] at hLess
        calc
          d.coefficient * 10
              ≤ d.coefficient * 10 ^ (count - d.scale) :=
                Nat.mul_le_mul_left _ hTen
          _ < coefficientBound := hLess

------------------------------------------------------------
-- Texts with an Exponent
------------------------------------------------------------

/- The first mark ends the base. -/
theorem takeWhile_append_mark
    {base rest : List Char}
    {mark : Char}
    (hBase : ∀ c ∈ base, isExponentMark c = false)
    (hMark : isExponentMark mark = true) :
    ((base ++ mark :: rest).takeWhile fun c =>
        !isExponentMark c) = base ∧
      ((base ++ mark :: rest).dropWhile fun c =>
        !isExponentMark c) = mark :: rest := by
  have hAll : ∀ c ∈ base, (!isExponentMark c) = true := by
    intro c hIn
    rw [hBase c hIn]
    rfl
  rw [List.takeWhile_append_of_pos hAll,
    List.dropWhile_append_of_pos hAll]
  simp [hMark]

theorem ofScientific?_minus
    {base digits : List Char}
    {mark : Char}
    (hBase : ∀ c ∈ base, isExponentMark c = false)
    (hMark : isExponentMark mark = true) :
    ofScientific? (base ++ mark :: '-' :: digits) =
      (ofPlain? base).bind fun b =>
        (unsignedOf? digits).bind b.shiftLeft? := by
  unfold ofScientific?
  dsimp only
  rw [(takeWhile_append_mark hBase hMark).1,
    (takeWhile_append_mark hBase hMark).2]
  rfl

theorem ofScientific?_bare
    {base rest : List Char}
    {mark : Char}
    (hBase : ∀ c ∈ base, isExponentMark c = false)
    (hMark : isExponentMark mark = true)
    (hRest : ∀ digits, rest ≠ '-' :: digits) :
    ofScientific? (base ++ mark :: rest) =
      (ofPlain? base).bind fun b =>
        (unsignedOf? rest).bind b.shiftRight? := by
  unfold ofScientific?
  dsimp only
  rw [(takeWhile_append_mark hBase hMark).1,
    (takeWhile_append_mark hBase hMark).2]
  split
  · rename_i hNone
    cases hNone
  · rename_i digits hMinus
    cases hMinus
    exact absurd rfl (hRest digits)
  · rename_i hSome
    cases hSome
    rfl

/- A text without a mark is not scientific. -/
theorem exists_mark_of_ofScientific?
    {text : List Char}
    {d : Decimal}
    (hRead : ofScientific? text = some d) :
    ∃ base mark rest, text = base ++ mark :: rest ∧
      (∀ c ∈ base, isExponentMark c = false) ∧
      isExponentMark mark = true := by
  have hSplit :=
    @List.takeWhile_append_dropWhile _
      (fun c => !isExponentMark c) text
  cases hRest : text.dropWhile fun c => !isExponentMark c with
  | nil =>
      unfold ofScientific? at hRead
      dsimp only at hRead
      rw [hRest] at hRead
      cases hRead
  | cons mark rest =>
      rw [hRest] at hSplit
      refine ⟨_, mark, rest, hSplit.symm, ?_, ?_⟩
      · intro c hIn
        have hNone := List.mem_takeWhile_imp hIn
        simpa using hNone
      · have hHead :=
          List.head_dropWhile_not
            (fun c => !isExponentMark c)
            (by rw [hRest]; exact List.cons_ne_nil _ _)
        simpa [hRest] using hHead

theorem exists_writesScaled_of_ofScientific?
    {text : List Char}
    {d : Decimal}
    (hRead : ofScientific? text = some d) :
    ∃ (n : Numeral) (exponent : ℤ),
      n.WritesScaled exponent text := by
  rcases exists_mark_of_ofScientific? hRead with
    ⟨base, mark, rest, hText, hBase, hMark⟩
  subst hText
  by_cases hMinus : ∃ digits, rest = '-' :: digits
  · rcases hMinus with ⟨digits, hDigits⟩
    subst hDigits
    rw [ofScientific?_minus hBase hMark] at hRead
    rcases Option.bind_eq_some_iff.mp hRead with
      ⟨b, hPlain, hShift⟩
    rcases Option.bind_eq_some_iff.mp hShift with
      ⟨count, hCount, _⟩
    rcases exists_writes_of_ofPlain? hPlain with
      ⟨n, hWrites, _, _⟩
    rw [unsignedOf?_eq_some_iff] at hCount
    exact ⟨n, -count, base, mark, _, rfl, hWrites, hMark,
      .minus hCount⟩
  · rw [ofScientific?_bare hBase hMark
      (not_exists.mp hMinus)] at hRead
    rcases Option.bind_eq_some_iff.mp hRead with
      ⟨b, hPlain, hShift⟩
    rcases Option.bind_eq_some_iff.mp hShift with
      ⟨count, hCount, _⟩
    rcases exists_writes_of_ofPlain? hPlain with
      ⟨n, hWrites, _, _⟩
    rw [unsignedOf?_eq_some_iff] at hCount
    exact ⟨n, count, base, mark, _, rfl, hWrites, hMark,
      .bare hCount⟩

/- A count of places has no minus sign. -/
theorem WritesCount.ne_minus
    {n : Nat}
    {text : List Char}
    (hCount : WritesCount n text)
    (rest : List Char) : text ≠ '-' :: rest := by
  intro hMinus
  cases hCount with
  | plus => cases hMinus
  | bare _ hAll =>
      have hDigit := hAll '-' (by simp [hMinus])
      cases hDigit

/- A point moved left keeps a near number near. -/
theorem near_of_shiftLeft?
    {d result : Decimal}
    {count : Nat}
    {x : ℚ}
    (hNear : |d.value - x| * 10 ^ d.scale < 1)
    (hShift : d.shiftLeft? count = some result) :
    |result.value - x / 10 ^ count| * 10 ^ result.scale <
      1 := by
  have hMoved :
      |d.value / 10 ^ count - x / 10 ^ count| *
          10 ^ (d.scale + count) < 1 := by
    rw [← sub_div, abs_div, pow_add,
      abs_of_pos (show (0 : ℚ) < 10 ^ count by positivity)]
    calc
      |d.value - x| / 10 ^ count * (10 ^ d.scale * 10 ^ count)
          = |d.value - x| * 10 ^ d.scale := by field_simp
      _ < 1 := hNear
  rcases shiftLeft?_cases hShift with
    ⟨hSame, hScale⟩ | ⟨hHalf, hScale⟩
  · rw [hSame, hScale]
    exact hMoved
  · -- One fraction digit or more is rounded away.
    have hPower :
        (10 : ℚ) ^ result.scale * 10 ≤
          10 ^ (d.scale + count) := by
      rw [← pow_succ]
      exact pow_le_pow_right₀ (by norm_num) hScale
    have hSmall :
        |d.value / 10 ^ count - x / 10 ^ count| *
            10 ^ result.scale * 10 < 1 := by
      calc
        |d.value / 10 ^ count - x / 10 ^ count| *
              10 ^ result.scale * 10
            = |d.value / 10 ^ count - x / 10 ^ count| *
                (10 ^ result.scale * 10) := by ring
        _ ≤ |d.value / 10 ^ count - x / 10 ^ count| *
              10 ^ (d.scale + count) :=
            mul_le_mul_of_nonneg_left hPower (abs_nonneg _)
        _ < 1 := hMoved
    have hTriangle :
        |result.value - x / 10 ^ count| ≤
          |result.value - d.value / 10 ^ count| +
            |d.value / 10 ^ count - x / 10 ^ count| :=
      abs_sub_le _ _ _
    calc
      |result.value - x / 10 ^ count| * 10 ^ result.scale
          ≤ (|result.value - d.value / 10 ^ count| +
              |d.value / 10 ^ count - x / 10 ^ count|) *
              10 ^ result.scale :=
            mul_le_mul_of_nonneg_right hTriangle
              (by positivity)
      _ = |result.value - d.value / 10 ^ count| *
            10 ^ result.scale +
          |d.value / 10 ^ count - x / 10 ^ count| *
            10 ^ result.scale := add_mul _ _ _
      _ < 1 := by linarith

/-
  A point moved right keeps a near number near. Past the last
  place only an exact number has room for its digits.
-/
theorem near_of_shiftRight?
    {d result : Decimal}
    {count : Nat}
    {x : ℚ}
    (hNear : |d.value - x| * 10 ^ d.scale < 1)
    (hRoom :
      d.value = x ∨ d.scale = mostScale ∨
        coefficientBound ≤ d.coefficient * 10)
    (hShift : d.shiftRight? count = some result) :
    |result.value - x * 10 ^ count| * 10 ^ result.scale <
      1 := by
  rcases shiftRight?_cases hShift with ⟨hValue, hScale⟩
  rw [hValue]
  rcases hScale with hScale | ⟨_, hMost, hFits⟩
  · rw [← sub_mul, abs_mul,
      abs_of_pos (show (0 : ℚ) < 10 ^ count by positivity),
      mul_assoc, ← pow_add, Nat.add_comm, hScale]
    exact hNear
  · have hExact : d.value = x := by
      rcases hRoom with hExact | hFull | hLarge
      · exact hExact
      · omega
      · omega
    rw [hExact]
    simp

/-
  A number times a power of ten is read as a decimal less
  than a unit of its last place away.
-/
theorem near_of_ofScientific?
    {n : Numeral}
    {exponent : ℤ}
    {text : List Char}
    {d : Decimal}
    (hScaled : n.WritesScaled exponent text)
    (hRead : ofScientific? text = some d) :
    |d.value - n.value * 10 ^ exponent| * 10 ^ d.scale <
      1 := by
  rcases hScaled with
    ⟨base, mark, rest, hText, hWrites, hMark, hExponent⟩
  have hBase := hWrites.not_isExponentMark
  rw [hText] at hRead
  cases hExponent with
  | @minus count digits hCount =>
      rw [ofScientific?_minus hBase hMark,
        unsignedOf?_eq_some_iff.mpr hCount] at hRead
      rcases Option.bind_eq_some_iff.mp hRead with
        ⟨b, hPlain, hShift⟩
      have hNear := near_of_ofPlain? hWrites hPlain
      rw [zpow_neg, zpow_natCast, ← div_eq_mul_inv]
      exact near_of_shiftLeft? hNear.1 hShift
  | @bare count _ hCount =>
      rw [ofScientific?_bare hBase hMark hCount.ne_minus,
        unsignedOf?_eq_some_iff.mpr hCount] at hRead
      rcases Option.bind_eq_some_iff.mp hRead with
        ⟨b, hPlain, hShift⟩
      have hNear := near_of_ofPlain? hWrites hPlain
      rw [zpow_natCast]
      exact near_of_shiftRight? hNear.1 hNear.2 hShift

end Decimal

end Criteria
