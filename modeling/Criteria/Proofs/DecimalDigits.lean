import Criteria.Decimal.Reader
import Criteria.Proofs.DigitTexts
import Mathlib.Tactic.Linarith
import Mathlib.Tactic.Ring

/-
  This file proves what the reading of decimal digits ends
  with.

  An unsigned numeral has digits before and after a point,
  and underscores after the first digit. Every text that is
  read is one. If all its digits fit, they are the result;
  otherwise the first digits are, as many as fit, rounded by
  what is left out. Only where an underscore cuts the digits
  short is nothing rounded.

  Key definitions include:
    * `Decimal.Unsigned`
    * `Decimal.Progress.Adds`
    * `Decimal.Progress.CutShort`
    * `Decimal.Keeps`

  Main statements:
    * `Decimal.Progress.Reads.keeps_or_cutShort`
    * `Decimal.Progress.scan?_of_fits`
    * `Decimal.Progress.eq_of_cutShort`
-/

------------------------------------------------------------
-- Numerals
------------------------------------------------------------

namespace Criteria

namespace Decimal

/-
  The rest of an unsigned numeral, after a point or not, and
  after a digit or not, with the digits in it that stand
  before the point and after it.
-/
inductive Unsigned :
    (afterPoint hasDigit : Bool) → (text : List Char) →
      (whole fraction : List Char) → Prop where
  | nil {afterPoint : Bool} :
      Unsigned afterPoint true [] [] []
  | whole
      {hasDigit : Bool}
      {c : Char}
      {text whole fraction : List Char}
      (hDigit : c.isDigit = true)
      (hRest : Unsigned false true text whole fraction) :
      Unsigned false hasDigit (c :: text) (c :: whole)
        fraction
  | fraction
      {hasDigit : Bool}
      {c : Char}
      {text fraction : List Char}
      (hDigit : c.isDigit = true)
      (hRest : Unsigned true true text [] fraction) :
      Unsigned true hasDigit (c :: text) [] (c :: fraction)
  | point
      {hasDigit : Bool}
      {text fraction : List Char}
      (hRest : Unsigned true hasDigit text [] fraction) :
      Unsigned false hasDigit ('.' :: text) [] fraction
  | underscore
      {afterPoint : Bool}
      {text whole fraction : List Char}
      (hRest :
        Unsigned afterPoint true text whole fraction) :
      Unsigned afterPoint true ('_' :: text) whole fraction

/-
  From some progress on, a text makes up a number of digits
  and a number of fraction digits.
-/
def Progress.Adds
    (p : Progress)
    (text : List Char)
    (digits scale : Nat) : Prop :=
  ∃ whole fraction,
    Unsigned p.afterPoint p.hasDigit text whole fraction ∧
    digits =
      Nat.ofDigitChars 10 (whole ++ fraction)
        p.coefficient ∧
    scale = p.scale + fraction.length

/-
  From some progress on, an underscore comes after the last
  fraction digit there is room for, while the coefficient of
  the digits is small.
-/
def Progress.CutShort
    (p : Progress)
    (text : List Char)
    (coefficient : Nat) : Prop :=
  ∃ before after, text = before ++ '_' :: after ∧
    p.Adds before coefficient mostScale ∧
    coefficient / 10 < (2 ^ 64 - 1) / 10 - 255

/-
  A coefficient keeps the digits of a number, rounded by the
  last ones, of which no more are dropped than have to be.
-/
def Keeps
    (digits length coefficient scale : Nat) : Prop :=
  ∃ dropped, scale + dropped = length ∧
    coefficient = dropDigits digits dropped ∧
    ∀ fewer < dropped, length ≤ mostScale + fewer →
      coefficientBound ≤ dropDigits digits fewer

------------------------------------------------------------
-- Rounding
------------------------------------------------------------

theorem dropDigits_zero (n : Nat) : dropDigits n 0 = n := by
  simp only [dropDigits, Nat.pow_eq, pow_zero]
  omega

/- Rounding gives no less than what the digits reach. -/
theorem le_dropDigits
    {n m count : Nat}
    (hReaches : m * 10 ^ count ≤ n) :
    m ≤ dropDigits n count := by
  have hPower : 0 < 10 ^ count := Nat.pow_pos (by decide)
  simp only [dropDigits, Nat.pow_eq]
  rw [Nat.le_div_iff_mul_le (by omega)]
  calc
    m * (2 * 10 ^ count) = 2 * (m * 10 ^ count) := by ring
    _ ≤ 2 * n + 10 ^ count := by omega

/- Further digits do not make a coefficient smaller. -/
theorem le_ofDigitChars
    (text : List Char)
    (n : Nat) :
    n ≤ Nat.ofDigitChars 10 text n := by
  rw [Nat.ofDigitChars_eq_ofDigitChars_zero]
  have hPower : 0 < 10 ^ text.length :=
    Nat.pow_pos (by decide)
  calc
    n = 1 * n := (Nat.one_mul n).symm
    _ ≤ 10 ^ text.length * n := Nat.mul_le_mul_right n hPower
    _ ≤ _ := Nat.le_add_right _ _

/- The first digit that is dropped decides the rounding. -/
theorem dropDigits_next
    {n digit count rest : Nat}
    (hDigit : digit < 10)
    (hRest : rest < 10 ^ count) :
    dropDigits (10 ^ count * (10 * n + digit) + rest)
        (count + 1) =
      if digit < 5 then n else n + 1 := by
  simp only [dropDigits, Nat.pow_eq, pow_succ]
  generalize 10 ^ count = power at *
  split
  · rename_i hLow
    apply Nat.div_eq_of_lt_le
    · nlinarith
    · nlinarith
  · apply Nat.div_eq_of_lt_le
    · nlinarith
    · nlinarith

/-
  The largest coefficient, rounded up, has a digit less when
  one more is dropped.
-/
theorem dropDigits_carry
    {digit count rest : Nat}
    (hDigit : digit < 10)
    (hRest : rest < 10 ^ count) :
    dropDigits
        (10 ^ count *
          (10 * (coefficientBound - 1) + digit) + rest)
        (count + 2) =
      (coefficientBound - 1 + 1 + 4) / 10 := by
  have hBound :
      coefficientBound = 79228162514264337593543950336 := rfl
  simp only [dropDigits, Nat.pow_eq, pow_succ, hBound]
  generalize 10 ^ count = power at *
  apply Nat.div_eq_of_lt_le
  · nlinarith
  · nlinarith

------------------------------------------------------------
-- The Digits of a Numeral
------------------------------------------------------------

/- No digit before the point comes after it. -/
theorem Unsigned.whole_eq_nil
    {hasDigit : Bool}
    {text whole fraction : List Char}
    (hText : Unsigned true hasDigit text whole fraction) :
    whole = [] := by
  generalize hPoint : true = afterPoint at hText
  induction hText with
  | nil => rfl
  | whole => cases hPoint
  | fraction => rfl
  | point => rfl
  | underscore _ ih => exact ih hPoint

theorem Unsigned.all_digits
    {afterPoint hasDigit : Bool}
    {text whole fraction : List Char}
    (hText :
      Unsigned afterPoint hasDigit text whole fraction) :
    Digits.All (whole ++ fraction) := by
  induction hText with
  | nil => exact Digits.all_nil
  | whole hDigit _ ih =>
      exact Digits.all_cons_iff.mpr ⟨hDigit, ih⟩
  | fraction hDigit _ ih =>
      exact Digits.all_cons_iff.mpr ⟨hDigit, ih⟩
  | point _ ih => exact ih
  | underscore _ ih => exact ih

theorem isDigit_underscore : '_'.isDigit = false := rfl

theorem isDigit_point : '.'.isDigit = false := rfl

/- A text writes at most one numeral. -/
theorem Unsigned.functional
    {afterPoint hasDigit : Bool}
    {text whole other fraction more : List Char}
    (hText :
      Unsigned afterPoint hasDigit text whole fraction)
    (hOther : Unsigned afterPoint hasDigit text other more) :
    whole = other ∧ fraction = more := by
  induction hText generalizing other more with
  | nil =>
      cases hOther
      exact ⟨rfl, rfl⟩
  | whole hDigit _ ih =>
      cases hOther with
      | whole _ hRest =>
          rcases ih hRest with ⟨hWhole, hFraction⟩
          exact ⟨congrArg _ hWhole, hFraction⟩
      | point => cases hDigit
      | underscore => cases hDigit
  | fraction hDigit _ ih =>
      cases hOther with
      | fraction _ hRest =>
          exact ⟨rfl, congrArg _ (ih hRest).2⟩
      | underscore => cases hDigit
  | point _ ih =>
      cases hOther with
      | whole hDigit => cases hDigit
      | point hRest => exact ih hRest
  | underscore _ ih =>
      cases hOther with
      | whole hDigit => cases hDigit
      | fraction hDigit => cases hDigit
      | underscore hRest => exact ih hRest

/- Digits before a point go on with the rest. -/
theorem Unsigned.wholes
    {digits text whole fraction : List Char}
    (hAll : Digits.All digits)
    (hText : Unsigned false true text whole fraction) :
    Unsigned false true (digits ++ text) (digits ++ whole)
      fraction := by
  induction digits with
  | nil => exact hText
  | cons c digits ih =>
      rw [Digits.all_cons_iff] at hAll
      exact .whole hAll.1 (ih hAll.2)

theorem Unsigned.fractions
    {digits text fraction : List Char}
    (hAll : Digits.All digits)
    (hText : Unsigned true true text [] fraction) :
    Unsigned true true (digits ++ text) []
      (digits ++ fraction) := by
  induction digits with
  | nil => exact hText
  | cons c digits ih =>
      rw [Digits.all_cons_iff] at hAll
      exact .fraction hAll.1 (ih hAll.2)

/- Digits and underscores go on after a point. -/
theorem exists_unsigned_of_isIgnorable
    {text : List Char}
    (hText : isIgnorable text = true) :
    ∃ fraction, Unsigned true true text [] fraction := by
  induction text with
  | nil => exact ⟨[], .nil⟩
  | cons c text ih =>
      simp only [isIgnorable, List.all_cons,
        Bool.and_eq_true, Bool.or_eq_true,
        decide_eq_true_eq] at hText ih
      rcases ih hText.2 with ⟨fraction, hRest⟩
      rcases hText.1 with hDigit | rfl
      · exact ⟨c :: fraction, .fraction hDigit hRest⟩
      · exact ⟨fraction, .underscore hRest⟩

/- After a point there are digits and underscores only. -/
theorem Unsigned.isIgnorable
    {afterPoint hasDigit : Bool}
    {text whole fraction : List Char}
    (hText :
      Unsigned afterPoint hasDigit text whole fraction)
    (hPoint : afterPoint = true) :
    isIgnorable text = true := by
  induction hText with
  | nil => rfl
  | whole => cases hPoint
  | fraction hDigit _ ih =>
      simp only [Decimal.isIgnorable, List.all_cons,
        Bool.and_eq_true, Bool.or_eq_true]
      exact ⟨.inl hDigit, ih hPoint⟩
  | point => cases hPoint
  | underscore _ ih =>
      simp only [Decimal.isIgnorable, List.all_cons,
        Bool.and_eq_true, Bool.or_eq_true]
      exact ⟨.inr (decide_eq_true trivial), ih hPoint⟩

------------------------------------------------------------
-- Numerals that Go on
------------------------------------------------------------

namespace Progress

/- Fraction digits are digits, and come after a point. -/
def Consistent (p : Progress) : Prop :=
  p.scale = 0 ∨ p.afterPoint = true ∧ p.hasDigit = true

theorem consistent_start : start.Consistent :=
  .inl rfl

theorem Consistent.push
    {p : Progress}
    (hConsistent : p.Consistent)
    (digit : Nat) : (p.push digit).Consistent := by
  cases hPoint : p.afterPoint with
  | true => exact .inr ⟨hPoint, rfl⟩
  | false =>
      rcases hConsistent with hScale | ⟨hAfter, _⟩
      · left
        simp [Progress.push, hPoint, hScale]
      · rw [hPoint] at hAfter
        cases hAfter

theorem Consistent.point
    {p : Progress}
    (hConsistent : p.Consistent) :
    { p with afterPoint := true }.Consistent := by
  rcases hConsistent with hScale | ⟨_, hHas⟩
  · exact .inl hScale
  · exact .inr ⟨rfl, hHas⟩

theorem adds_nil
    {p : Progress}
    (hHas : p.hasDigit = true) :
    p.Adds [] p.coefficient p.scale := by
  refine ⟨[], [], ?_, rfl, rfl⟩
  rw [hHas]
  exact .nil

theorem Adds.digit
    {p : Progress}
    {c : Char}
    {text : List Char}
    {digits scale : Nat}
    (hDigit : c.isDigit = true)
    (hAdds : (p.push (digitOf c)).Adds text digits scale) :
    p.Adds (c :: text) digits scale := by
  rcases hAdds with ⟨whole, fraction, hText, rfl, rfl⟩
  cases hPoint : p.afterPoint with
  | false =>
      simp only [push, hPoint] at hText
      refine ⟨c :: whole, fraction, ?_, ?_, ?_⟩
      · rw [hPoint]
        exact .whole hDigit hText
      · rw [List.cons_append, Nat.ofDigitChars_cons]
        rfl
      · simp [push, hPoint]
  | true =>
      simp only [push, hPoint] at hText
      have hWhole := hText.whole_eq_nil
      subst hWhole
      refine ⟨[], c :: fraction, ?_, ?_, ?_⟩
      · rw [hPoint]
        exact .fraction hDigit hText
      · rw [List.nil_append, List.nil_append,
          Nat.ofDigitChars_cons]
        rfl
      · simp only [push, hPoint, if_true, List.length_cons]
        omega

theorem Adds.point
    {p : Progress}
    {text : List Char}
    {digits scale : Nat}
    (hPoint : p.afterPoint = false)
    (hAdds :
      { p with afterPoint := true }.Adds text digits scale) :
    p.Adds ('.' :: text) digits scale := by
  rcases hAdds with ⟨whole, fraction, hText, hDigits, hScale⟩
  have hWhole := Unsigned.whole_eq_nil hText
  subst hWhole
  refine ⟨[], fraction, ?_, hDigits, hScale⟩
  rw [hPoint]
  exact .point hText

theorem Adds.underscore
    {p : Progress}
    {text : List Char}
    {digits scale : Nat}
    (hHas : p.hasDigit = true)
    (hAdds : p.Adds text digits scale) :
    p.Adds ('_' :: text) digits scale := by
  rcases hAdds with ⟨whole, fraction, hText, hDigits, hScale⟩
  refine ⟨whole, fraction, ?_, hDigits, hScale⟩
  rw [hHas] at hText ⊢
  exact .underscore hText

------------------------------------------------------------
-- Steps
------------------------------------------------------------

/-
  How a text is read on, step by step, up to the progress at
  its end.
-/
inductive Reads :
    Progress → List Char → Progress → Prop where
  | stop
      {p : Progress}
      (hHas : p.hasDigit = true) : Reads p [] p
  | digit
      {p result : Progress}
      {c : Char}
      {text : List Char}
      (hDigit : c.isDigit = true)
      (hRoom : p.extended (digitOf c) < coefficientBound)
      (hRest : Reads (p.push (digitOf c)) text result) :
      Reads p (c :: text) result
  | rounded
      {p result : Progress}
      {c : Char}
      {text : List Char}
      (hDigit : c.isDigit = true)
      (hPoint : p.afterPoint = true)
      (hFull : p.isFull (digitOf c) = true)
      (hRest : isIgnorable text = true)
      (hRounded : p.rounded? (digitOf c) = some result) :
      Reads p (c :: text) result
  | point
      {p result : Progress}
      {text : List Char}
      (hPoint : p.afterPoint = false)
      (hRest :
        Reads { p with afterPoint := true } text result) :
      Reads p ('.' :: text) result
  | underscore
      {p result : Progress}
      {text : List Char}
      (hHas : p.hasDigit = true)
      (hRest : Reads p text result) :
      Reads p ('_' :: text) result
  | cut
      {p : Progress}
      {text : List Char}
      (hSmall : p.isSmallAndFull = true)
      (hRest : isIgnorable text = true) :
      Reads p ('_' :: text) p

theorem reads_of_scan?
    {p result : Progress}
    {text : List Char}
    (hScan : scan? text p = some result) :
    p.Reads text result := by
  induction text generalizing p with
  | nil =>
      simp only [scan?] at hScan
      split at hScan
      · rename_i hHas
        cases hScan
        exact .stop hHas
      · cases hScan
  | cons c text ih =>
      rw [scan?] at hScan
      by_cases hDigit : c.isDigit = true
      · simp only [hDigit, if_true] at hScan
        cases hPoint : p.afterPoint with
        | false =>
            simp only [hPoint, Bool.false_eq_true,
              if_false] at hScan
            split at hScan
            · cases hScan
            · rename_i hRoom
              exact .digit hDigit (Nat.lt_of_not_le hRoom)
                (ih hScan)
        | true =>
            simp only [hPoint, if_true] at hScan
            split at hScan
            · rename_i hFull
              split at hScan
              · rename_i hRest
                exact .rounded hDigit hPoint hFull hRest
                  hScan
              · cases hScan
            · rename_i hRoom
              simp only [isFull, decide_eq_true_eq,
                not_or] at hRoom
              exact .digit hDigit
                (Nat.lt_of_not_le hRoom.1) (ih hScan)
      · rw [if_neg hDigit] at hScan
        split at hScan
        · rename_i hChar
          subst hChar
          split at hScan
          · cases hScan
          · rename_i hPoint
            exact .point (Bool.eq_false_of_not_eq_true hPoint)
              (ih hScan)
        · split at hScan
          · rename_i hChar
            subst hChar
            split at hScan
            · rename_i hSmall
              split at hScan
              · rename_i hRest
                cases hScan
                exact .cut hSmall hRest
              · cases hScan
            · split at hScan
              · rename_i hHas
                exact .underscore hHas (ih hScan)
              · cases hScan
          · cases hScan

------------------------------------------------------------
-- Results
------------------------------------------------------------

theorem keeps_self (p : Progress) :
    Keeps p.coefficient p.scale p.coefficient p.scale := by
  refine ⟨0, rfl, (dropDigits_zero _).symm, ?_⟩
  intro fewer hFewer
  omega

/-
  Where a digit finds no room, no rounding that keeps it does
  either.
-/
theorem bound_le_of_isFull
    {p : Progress}
    {digit rest count fewer : Nat}
    (hFull : p.isFull digit = true)
    (hFewer : fewer ≤ count)
    (hScale : p.scale + 1 + count ≤ mostScale + fewer) :
    coefficientBound ≤
      dropDigits (10 ^ count * p.extended digit + rest)
        fewer := by
  have hBound : coefficientBound ≤ p.extended digit := by
    simp only [isFull, decide_eq_true_eq] at hFull
    rcases hFull with hBound | hMost
    · exact hBound
    · omega
  apply le_dropDigits
  calc
    coefficientBound * 10 ^ fewer
        ≤ p.extended digit * 10 ^ count := by
          apply Nat.mul_le_mul hBound
          exact Nat.pow_le_pow_right (by decide) hFewer
    _ = 10 ^ count * p.extended digit := Nat.mul_comm _ _
    _ ≤ _ := Nat.le_add_right _ _

/- What the first digit without room rounds to. -/
theorem keeps_of_rounded?
    {p result : Progress}
    {digit rest count : Nat}
    (hFits : p.coefficient < coefficientBound)
    (hDigit : digit < 10)
    (hRest : rest < 10 ^ count)
    (hFull : p.isFull digit = true)
    (hRounded : p.rounded? digit = some result) :
    Keeps (10 ^ count * p.extended digit + rest)
      (p.scale + 1 + count) result.coefficient
      result.scale := by
  have hNext := @dropDigits_next p.coefficient digit count
    rest hDigit hRest
  unfold rounded? at hRounded
  split at hRounded
  · rename_i hLow
    cases hRounded
    rw [if_pos hLow] at hNext
    refine ⟨count + 1, by omega, hNext.symm, ?_⟩
    intro fewer hFewer hScale
    exact bound_le_of_isFull hFull (by omega) hScale
  · rename_i hHigh
    rw [if_neg hHigh] at hNext
    split at hRounded
    · cases hRounded
      refine ⟨count + 1, by simp only []; omega,
        hNext.symm, ?_⟩
      intro fewer hFewer hScale
      exact bound_le_of_isFull hFull (by omega) hScale
    · rename_i hLarge
      split at hRounded
      · cases hRounded
      · rename_i hScale
        cases hRounded
        have hLast :
            p.coefficient = coefficientBound - 1 := by
          omega
        refine ⟨count + 2, by simp only []; omega, ?_, ?_⟩
        · simp only [extended, hLast]
          exact (dropDigits_carry hDigit hRest).symm
        · intro fewer hFewer hMost
          -- With one digit more the carry does not fit.
          by_cases hCarry : fewer = count + 1
          · subst hCarry
            unfold extended
            rw [hNext]
            omega
          · exact bound_le_of_isFull hFull (by omega) hMost

theorem CutShort.digit
    {p : Progress}
    {c : Char}
    {text : List Char}
    {coefficient : Nat}
    (hDigit : c.isDigit = true)
    (hCut :
      (p.push (digitOf c)).CutShort text coefficient) :
    p.CutShort (c :: text) coefficient := by
  rcases hCut with ⟨before, after, rfl, hAdds, hSmall⟩
  exact ⟨c :: before, after, rfl, hAdds.digit hDigit, hSmall⟩

theorem CutShort.point
    {p : Progress}
    {text : List Char}
    {coefficient : Nat}
    (hPoint : p.afterPoint = false)
    (hCut :
      { p with afterPoint := true }.CutShort text
        coefficient) :
    p.CutShort ('.' :: text) coefficient := by
  rcases hCut with ⟨before, after, rfl, hAdds, hSmall⟩
  exact ⟨'.' :: before, after, rfl, hAdds.point hPoint, hSmall⟩

theorem CutShort.underscore
    {p : Progress}
    {text : List Char}
    {coefficient : Nat}
    (hHas : p.hasDigit = true)
    (hCut : p.CutShort text coefficient) :
    p.CutShort ('_' :: text) coefficient := by
  rcases hCut with ⟨before, after, rfl, hAdds, hSmall⟩
  exact ⟨'_' :: before, after, rfl, hAdds.underscore hHas,
    hSmall⟩

/- The end of a reading keeps the digits, or is cut short. -/
theorem Reads.keeps_or_cutShort
    {p result : Progress}
    {text : List Char}
    (hReads : p.Reads text result)
    (hConsistent : p.Consistent)
    (hFits : p.coefficient < coefficientBound) :
    ∃ digits scale, p.Adds text digits scale ∧
      (Keeps digits scale result.coefficient result.scale ∨
        p.CutShort text result.coefficient) := by
  induction hReads with
  | stop hHas =>
      exact ⟨_, _, adds_nil hHas, .inl (keeps_self _)⟩
  | digit hDigit hRoom hRest ih =>
      rcases ih (hConsistent.push _) hRoom with
        ⟨digits, scale, hAdds, hResult⟩
      refine ⟨digits, scale, hAdds.digit hDigit, ?_⟩
      rcases hResult with hKeeps | hCut
      · exact .inl hKeeps
      · exact .inr (hCut.digit hDigit)
  | @rounded p result c text hDigit hPoint hFull hRest
      hRounded =>
      rcases exists_unsigned_of_isIgnorable hRest with
        ⟨fraction, hText⟩
      refine ⟨_, _, ⟨[], c :: fraction, ?_, rfl, rfl⟩, ?_⟩
      · rw [hPoint]
        exact .fraction hDigit hText
      · left
        rw [List.nil_append, Nat.ofDigitChars_cons,
          Nat.ofDigitChars_eq_ofDigitChars_zero,
          List.length_cons, Nat.add_comm fraction.length,
          ← Nat.add_assoc]
        exact keeps_of_rounded? hFits
          (Digits.digit_lt hDigit)
          (Digits.ofDigitChars_lt hText.all_digits)
          hFull hRounded
  | point hPoint hRest ih =>
      rcases ih hConsistent.point hFits with
        ⟨digits, scale, hAdds, hResult⟩
      refine ⟨digits, scale, hAdds.point hPoint, ?_⟩
      rcases hResult with hKeeps | hCut
      · exact .inl hKeeps
      · exact .inr (hCut.point hPoint)
  | underscore hHas hRest ih =>
      rcases ih hConsistent hFits with
        ⟨digits, scale, hAdds, hResult⟩
      refine ⟨digits, scale, hAdds.underscore hHas, ?_⟩
      rcases hResult with hKeeps | hCut
      · exact .inl hKeeps
      · exact .inr (hCut.underscore hHas)
  | cut hSmall hRest =>
      simp only [isSmallAndFull, decide_eq_true_eq] at hSmall
      rcases hConsistent with hScale | ⟨hPoint, hHas⟩
      · rw [hScale] at hSmall
        cases hSmall.1
      · rcases exists_unsigned_of_isIgnorable hRest with
          ⟨fraction, hText⟩
        refine ⟨_, _,
          ⟨[], fraction, ?_, rfl, rfl⟩, .inr ?_⟩
        · rw [hPoint, hHas]
          exact .underscore hText
        · refine ⟨[], _, rfl, ?_, hSmall.2⟩
          rw [← hSmall.1]
          exact adds_nil hHas

------------------------------------------------------------
-- Numerals that Fit
------------------------------------------------------------

/-
  Once a part of a text is read, the rest is read from there,
  or is left out, if an underscore has cut the digits short.
-/
def Passes
    (p : Progress)
    (before : List Char)
    (next : Progress) : Prop :=
  ∀ rest, scan? (before ++ rest) p = scan? rest next ∨
    next.isSmallAndFull = true ∧
      scan? (before ++ rest) p =
        if isIgnorable rest then some next else none

theorem Passes.of_step
    {p q next : Progress}
    {c : Char}
    {before : List Char}
    (hStep :
      ∀ rest, scan? (c :: before ++ rest) p =
        scan? (before ++ rest) q)
    (hPasses : q.Passes before next) :
    p.Passes (c :: before) next := by
  intro rest
  rw [hStep rest]
  exact hPasses rest

theorem Passes.digit
    {p next : Progress}
    {c : Char}
    {before : List Char}
    (hDigit : c.isDigit = true)
    (hRoom : p.extended (digitOf c) < coefficientBound)
    (hScale : p.afterPoint = true → p.scale < mostScale)
    (hPasses : (p.push (digitOf c)).Passes before next) :
    p.Passes (c :: before) next := by
  refine .of_step (fun rest => ?_) hPasses
  rw [List.cons_append, scan?, if_pos hDigit]
  cases hPoint : p.afterPoint with
  | false =>
      simp only [Bool.false_eq_true, if_false,
        if_neg (Nat.not_le_of_lt hRoom)]
  | true =>
      have hFull : ¬ p.isFull (digitOf c) = true := by
        have hLess := hScale hPoint
        simp only [isFull, decide_eq_true_eq]
        omega
      simp only [if_true, if_neg hFull]

theorem Passes.point
    {p next : Progress}
    {before : List Char}
    (hPoint : p.afterPoint = false)
    (hPasses :
      { p with afterPoint := true }.Passes before next) :
    p.Passes ('.' :: before) next := by
  refine .of_step (fun rest => ?_) hPasses
  simp [scan?, isDigit_point, hPoint]

theorem Passes.underscore
    {p next : Progress}
    {before : List Char}
    (hHas : p.hasDigit = true)
    (hSmall : ¬ p.isSmallAndFull = true)
    (hPasses : p.Passes before next) :
    p.Passes ('_' :: before) next := by
  refine .of_step (fun rest => ?_) hPasses
  simp [scan?, isDigit_underscore, hSmall, hHas]

/- An underscore that cuts the digits short. -/
theorem passes_of_isSmallAndFull
    {p : Progress}
    {before : List Char}
    (hSmall : p.isSmallAndFull = true)
    (hBefore : isIgnorable before = true) :
    p.Passes ('_' :: before) p := by
  intro rest
  have hIgnored :
      isIgnorable (before ++ rest) = isIgnorable rest := by
    simp only [isIgnorable] at hBefore ⊢
    rw [List.all_append, hBefore, Bool.true_and]
  right
  refine ⟨hSmall, ?_⟩
  simp [scan?, isDigit_underscore, hSmall, hIgnored]

/- Where no scale is left, no digit comes any more. -/
theorem eq_nil_of_isSmallAndFull
    {afterPoint hasDigit : Bool}
    {text whole fraction : List Char}
    {p : Progress}
    (hText :
      Unsigned afterPoint hasDigit text whole fraction)
    (hPoint : p.afterPoint = afterPoint)
    (hConsistent : p.Consistent)
    (hSmall : p.isSmallAndFull = true)
    (hScale : p.scale + fraction.length ≤ mostScale) :
    afterPoint = true ∧ whole = [] ∧ fraction = [] := by
  simp only [isSmallAndFull, decide_eq_true_eq] at hSmall
  have hAfter : afterPoint = true := by
    rcases hConsistent with hZero | ⟨hAfter, _⟩
    · rw [hZero] at hSmall
      cases hSmall.1
    · rw [← hPoint, hAfter]
  subst hAfter
  refine ⟨rfl, hText.whole_eq_nil, ?_⟩
  apply List.eq_nil_of_length_eq_zero
  omega

/- Digits that fit are read, and nothing of them is lost. -/
theorem exists_passes_of_unsigned
    {afterPoint hasDigit : Bool}
    {before whole fraction : List Char}
    {p : Progress}
    (hText :
      Unsigned afterPoint hasDigit before whole fraction)
    (hPoint : p.afterPoint = afterPoint)
    (hHas : p.hasDigit = hasDigit)
    (hConsistent : p.Consistent)
    (hFits :
      Nat.ofDigitChars 10 (whole ++ fraction) p.coefficient <
        coefficientBound)
    (hScale : p.scale + fraction.length ≤ mostScale) :
    ∃ next : Progress, p.Passes before next ∧
      next.hasDigit = true ∧
      next.coefficient =
        Nat.ofDigitChars 10 (whole ++ fraction)
          p.coefficient ∧
      next.scale = p.scale + fraction.length := by
  induction hText generalizing p with
  | nil =>
      exact ⟨p, fun _ => .inl rfl, hHas, rfl, rfl⟩
  | @whole _ c text whole fraction hDigit hRest ih =>
      rw [List.cons_append, Nat.ofDigitChars_cons] at hFits
      have hRoom : p.extended (digitOf c) < coefficientBound :=
        Nat.lt_of_le_of_lt (le_ofDigitChars _ _) hFits
      have hPush :
          (p.push (digitOf c)).scale = p.scale := by
        simp [push, hPoint]
      rcases @ih (p.push (digitOf c)) hPoint rfl
        (hConsistent.push _) hFits
        (by rw [hPush]; exact hScale) with
        ⟨next, hPasses, hNext, hSame, hLast⟩
      refine ⟨next, hPasses.digit hDigit hRoom ?_, hNext,
        ?_, ?_⟩
      · intro hAfter
        rw [hPoint] at hAfter
        cases hAfter
      · rw [hSame, List.cons_append, Nat.ofDigitChars_cons]
        rfl
      · rw [hLast, hPush]
  | @fraction _ c text fraction hDigit hRest ih =>
      rw [List.nil_append, Nat.ofDigitChars_cons] at hFits
      have hRoom : p.extended (digitOf c) < coefficientBound :=
        Nat.lt_of_le_of_lt (le_ofDigitChars _ _) hFits
      have hPush :
          (p.push (digitOf c)).scale = p.scale + 1 := by
        simp [push, hPoint]
      rw [List.length_cons] at hScale
      rcases @ih (p.push (digitOf c)) hPoint rfl
        (hConsistent.push _) hFits (by rw [hPush]; omega) with
        ⟨next, hPasses, hNext, hSame, hLast⟩
      refine ⟨next,
        hPasses.digit hDigit hRoom (fun _ => by omega), hNext,
        ?_, ?_⟩
      · rw [hSame, List.nil_append, List.nil_append,
          Nat.ofDigitChars_cons]
        rfl
      · rw [hLast, hPush, List.length_cons]
        omega
  | point hRest ih =>
      rcases @ih { p with afterPoint := true } rfl hHas
        hConsistent.point hFits hScale with
        ⟨next, hPasses, hNext, hSame, hLast⟩
      exact ⟨next, hPasses.point hPoint, hNext, hSame, hLast⟩
  | underscore hRest ih =>
      by_cases hSmall : p.isSmallAndFull = true
      · rcases eq_nil_of_isSmallAndFull hRest hPoint
          hConsistent hSmall hScale with ⟨rfl, rfl, rfl⟩
        exact ⟨p,
          passes_of_isSmallAndFull hSmall
            (hRest.isIgnorable rfl),
          hHas, rfl, rfl⟩
      · rcases ih hPoint hHas hConsistent hFits hScale with
          ⟨next, hPasses, hNext, hSame, hLast⟩
        exact ⟨next, hPasses.underscore hHas hSmall, hNext,
          hSame, hLast⟩

/- Digits that fit are the result. -/
theorem scan?_of_fits
    {p : Progress}
    {text : List Char}
    {digits scale : Nat}
    (hAdds : p.Adds text digits scale)
    (hConsistent : p.Consistent)
    (hFits : digits < coefficientBound)
    (hScale : scale ≤ mostScale) :
    ∃ result, scan? text p = some result ∧
      result.coefficient = digits ∧
      result.scale = scale := by
  rcases hAdds with ⟨whole, fraction, hText, rfl, rfl⟩
  rcases exists_passes_of_unsigned hText rfl rfl hConsistent
    hFits hScale with ⟨next, hPasses, hNext, hSame, hLast⟩
  refine ⟨next, ?_, hSame, hLast⟩
  have hEnd := hPasses []
  rw [List.append_nil] at hEnd
  rcases hEnd with hScan | ⟨_, hScan⟩
  · rw [hScan, scan?, if_pos hNext]
  · rw [hScan]
    rfl

/- Digits that are cut short are the result as they are. -/
theorem eq_of_cutShort
    {p result : Progress}
    {text : List Char}
    {coefficient : Nat}
    (hCut : p.CutShort text coefficient)
    (hConsistent : p.Consistent)
    (hScan : scan? text p = some result) :
    result.coefficient = coefficient ∧
      result.scale = mostScale := by
  rcases hCut with ⟨before, after, rfl, hAdds, hSmall⟩
  have hFits : coefficient < coefficientBound := by
    have hBound :
        coefficientBound = 79228162514264337593543950336 :=
      rfl
    omega
  rcases hAdds with ⟨whole, fraction, hText, rfl, hScale⟩
  rcases exists_passes_of_unsigned hText rfl rfl hConsistent
    hFits hScale.ge with
    ⟨next, hPasses, hNext, hSame, hLast⟩
  have hFull : next.isSmallAndFull = true := by
    simp only [isSmallAndFull, decide_eq_true_eq]
    rw [hSame, hLast]
    exact ⟨hScale.symm, hSmall⟩
  have hResult : result = next := by
    rcases hPasses ('_' :: after) with hRest | ⟨_, hRest⟩
    · rw [hRest] at hScan
      simp only [scan?, isDigit_underscore, hFull,
        Bool.false_eq_true, if_true, if_false] at hScan
      split at hScan
      · rename_i hChar
        cases hChar
      · split at hScan
        · cases hScan
          rfl
        · cases hScan
    · rw [hRest] at hScan
      split at hScan
      · cases hScan
        rfl
      · cases hScan
  subst hResult
  exact ⟨hSame, by rw [hLast, hScale]⟩

end Progress

end Decimal

end Criteria
