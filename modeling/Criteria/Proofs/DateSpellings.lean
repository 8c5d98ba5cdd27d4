import Criteria.Proofs.CalendarDays
import Criteria.Proofs.DigitTexts

/-
  This file proves which texts spell a date.

  A date is spelled as its year, month and day with hyphens
  between them, and blanks wherever a part begins or ends. A
  year has up to four digits, or a sign and any number of
  them. A text is read as a date exactly if it spells it,
  and what is written for a date does.

  Key definitions include:
    * `Date.IsYear`
    * `Date.IsNumber`
    * `Date.Spells`

  Main statements:
    * `Date.ofChars?_eq_some_iff`
    * `Date.ofChars?_chars`
-/

------------------------------------------------------------
-- Blanks
------------------------------------------------------------

namespace Criteria

namespace Text

/- A text of blanks. -/
def Blank (text : List Char) : Prop :=
  ∀ c ∈ text, isBlank c = true

/- A text does not start with a blank. -/
def Begun (text : List Char) : Prop :=
  ∀ c, text.head? = some c → isBlank c = false

theorem exists_skipBlanks (text : List Char) :
    ∃ blanks, Blank blanks ∧
      text = blanks ++ skipBlanks text := by
  refine ⟨text.takeWhile isBlank, ?_, ?_⟩
  · intro c hIn
    exact List.mem_takeWhile_imp hIn
  · exact (List.takeWhile_append_dropWhile).symm

theorem skipBlanks_append
    {blanks rest : List Char}
    (hBlank : Blank blanks)
    (hBegun : Begun rest) :
    skipBlanks (blanks ++ rest) = rest := by
  unfold skipBlanks
  rw [List.dropWhile_append_of_pos hBlank]
  cases rest with
  | nil => rfl
  | cons c rest =>
      rw [List.dropWhile_cons_of_neg]
      rw [hBegun c rfl]
      exact Bool.false_ne_true

/- No blank is a digit. -/
theorem isBlank_of_isDigit
    {c : Char}
    (hDigit : c.isDigit = true) : isBlank c = false := by
  have hCode := Digits.toNat_of_isDigit hDigit
  simp only [isBlank, blankRanges, List.any_cons, List.any_nil,
    Bool.or_false, Bool.or_eq_false_iff,
    Bool.and_eq_false_iff, decide_eq_false_iff_not]
  omega

theorem isDigit_of_isBlank
    {c : Char}
    (hBlank : isBlank c = true) : c.isDigit = false := by
  cases hDigit : c.isDigit with
  | false => rfl
  | true =>
      rw [isBlank_of_isDigit hDigit] at hBlank
      cases hBlank

end Text

namespace Date

------------------------------------------------------------
-- Spellings
------------------------------------------------------------

/- The spellings of a year. -/
inductive IsYear : Int → List Char → Prop where
  | minus
      {digits : List Char}
      (hSome : digits ≠ [])
      (hAll : Digits.All digits) :
      IsYear (-(Nat.ofDigitChars 10 digits 0 : Nat))
        ('-' :: digits)
  | plus
      {digits : List Char}
      (hSome : digits ≠ [])
      (hAll : Digits.All digits) :
      IsYear (Nat.ofDigitChars 10 digits 0 : Nat)
        ('+' :: digits)
  | bare
      {digits : List Char}
      (hSome : digits ≠ [])
      (hAll : Digits.All digits)
      (hFew : digits.length ≤ 4) :
      IsYear (Nat.ofDigitChars 10 digits 0 : Nat) digits

/- The spellings of a month or a day. -/
inductive IsNumber : Nat → List Char → Prop where
  | intro
      {digits : List Char}
      (hSome : digits ≠ [])
      (hAll : Digits.All digits)
      (hFew : digits.length ≤ 2) :
      IsNumber (Nat.ofDigitChars 10 digits 0) digits

/- A hyphen may have blanks around it. -/
inductive IsHyphen : List Char → Prop where
  | intro
      {before after : List Char}
      (hBefore : Text.Blank before)
      (hAfter : Text.Blank after) :
      IsHyphen (before ++ '-' :: after)

/- A text has the parts of a date, with blanks around them. -/
def Spells
    (d : Date)
    (text : List Char) : Prop :=
  ∃ blanks year first month second day rest,
    text = blanks ++ (year ++ (first ++ (month ++
      (second ++ (day ++ rest))))) ∧
    Text.Blank blanks ∧ IsYear d.year year ∧
    IsHyphen first ∧ IsNumber d.month month ∧
    IsHyphen second ∧ IsNumber d.day day ∧
    Text.Blank rest

------------------------------------------------------------
-- Parts
------------------------------------------------------------

theorem exists_of_take?
    {most n : Nat}
    {text rest : List Char}
    (hTake : Digits.take? 1 most text = some (n, rest)) :
    ∃ digits, digits ≠ [] ∧ Digits.All digits ∧
      digits.length ≤ most ∧ text = digits ++ rest ∧
      n = Nat.ofDigitChars 10 digits 0 := by
  rcases Digits.take?_eq_some_iff.mp hTake with
    ⟨digits, hText, hAll, hLeast, hMost, _, hN⟩
  exact ⟨digits, List.length_pos_iff.mp hLeast, hAll, hMost,
    hText, hN⟩

theorem take?_append
    {most : Nat}
    {digits rest : List Char}
    (hSome : digits ≠ [])
    (hAll : Digits.All digits)
    (hMost : digits.length ≤ most)
    (hEnded : Digits.Ended rest) :
    Digits.take? 1 most (digits ++ rest) =
      some (Nat.ofDigitChars 10 digits 0, rest) :=
  Digits.take?_eq_some_iff.mpr
    ⟨digits, rfl, hAll, List.length_pos_iff.mpr hSome, hMost,
      fun _ => hEnded, rfl⟩

theorem exists_of_takeAll?
    {n : Nat}
    {text rest : List Char}
    (hTake : Digits.takeAll? text = some (n, rest)) :
    ∃ digits, digits ≠ [] ∧ Digits.All digits ∧
      text = digits ++ rest ∧
      n = Nat.ofDigitChars 10 digits 0 := by
  rcases exists_of_take? hTake with
    ⟨digits, hSome, hAll, _, hText, hN⟩
  exact ⟨digits, hSome, hAll, hText, hN⟩

theorem takeAll?_append
    {digits rest : List Char}
    (hSome : digits ≠ [])
    (hAll : Digits.All digits)
    (hEnded : Digits.Ended rest) :
    Digits.takeAll? (digits ++ rest) =
      some (Nat.ofDigitChars 10 digits 0, rest) := by
  have hLength :
      digits.length ≤ (digits ++ rest).length := by
    rw [List.length_append]
    omega
  exact take?_append hSome hAll hLength hEnded

theorem exists_of_takeYear?
    {year : Int}
    {text rest : List Char}
    (hTake : takeYear? text = some (year, rest)) :
    ∃ part, IsYear year part ∧ text = part ++ rest := by
  unfold takeYear? at hTake
  split at hTake
  · rcases Option.map_eq_some_iff.mp hTake with
      ⟨⟨n, left⟩, hDigits, hYear⟩
    cases hYear
    rcases exists_of_takeAll? hDigits with
      ⟨digits, hSome, hAll, hText, hN⟩
    subst hText hN
    exact ⟨'-' :: digits, .minus hSome hAll, rfl⟩
  · rcases Option.map_eq_some_iff.mp hTake with
      ⟨⟨n, left⟩, hDigits, hYear⟩
    cases hYear
    rcases exists_of_takeAll? hDigits with
      ⟨digits, hSome, hAll, hText, hN⟩
    subst hText hN
    exact ⟨'+' :: digits, .plus hSome hAll, rfl⟩
  · rcases Option.map_eq_some_iff.mp hTake with
      ⟨⟨n, left⟩, hDigits, hYear⟩
    cases hYear
    rcases exists_of_take? hDigits with
      ⟨digits, hSome, hAll, hFew, hText, hN⟩
    subst hText hN
    exact ⟨digits, .bare hSome hAll hFew, rfl⟩

theorem takeYear?_append
    {year : Int}
    {part rest : List Char}
    (hYear : IsYear year part)
    (hEnded : Digits.Ended rest) :
    takeYear? (part ++ rest) = some (year, rest) := by
  cases hYear with
  | minus hSome hAll =>
      rw [List.cons_append, takeYear?,
        takeAll?_append hSome hAll hEnded]
      rfl
  | plus hSome hAll =>
      rw [List.cons_append, takeYear?,
        takeAll?_append hSome hAll hEnded]
      rfl
  | bare hSome hAll hFew =>
      have hTake := take?_append hSome hAll hFew hEnded
      cases part with
      | nil => exact absurd rfl hSome
      | cons c digits =>
          have hDigit := (Digits.all_cons_iff.mp hAll).1
          -- A digit is no sign.
          unfold takeYear?
          split
          · rename_i hText
            cases hText
            cases hDigit
          · rename_i hText
            cases hText
            cases hDigit
          · rw [hTake]
            rfl

theorem exists_of_skipHyphen?
    {text rest : List Char}
    (hSkip : skipHyphen? text = some rest) :
    ∃ hyphen, IsHyphen hyphen ∧ text = hyphen ++ rest := by
  rcases Text.exists_skipBlanks text with
    ⟨before, hBefore, hText⟩
  unfold skipHyphen? at hSkip
  split at hSkip
  · rename_i tail hHyphen
    rcases Text.exists_skipBlanks tail with
      ⟨after, hAfter, hTail⟩
    cases hSkip
    refine ⟨before ++ '-' :: after, .intro hBefore hAfter, ?_⟩
    rw [hHyphen, hTail] at hText
    rw [hText, List.append_assoc, List.cons_append]
  · cases hSkip

theorem skipHyphen?_append
    {hyphen rest : List Char}
    (hHyphen : IsHyphen hyphen)
    (hBegun : Text.Begun rest) :
    skipHyphen? (hyphen ++ rest) = some rest := by
  cases hHyphen with
  | @intro before after hBefore hAfter =>
      have hFirst : Text.Begun ('-' :: (after ++ rest)) := by
        intro c hHead
        cases hHead
        decide
      unfold skipHyphen?
      rw [List.append_assoc, List.cons_append,
        Text.skipBlanks_append hBefore hFirst]
      simp only [Text.skipBlanks_append hAfter hBegun]

------------------------------------------------------------
-- Ends of Parts
------------------------------------------------------------

theorem ended_of_blank
    {text : List Char}
    (hBlank : Text.Blank text) : Digits.Ended text := by
  intro c hHead
  exact Text.isDigit_of_isBlank
    (hBlank c (List.mem_of_mem_head? hHead))

theorem IsHyphen.ended
    {hyphen : List Char}
    (hHyphen : IsHyphen hyphen)
    (rest : List Char) : Digits.Ended (hyphen ++ rest) := by
  cases hHyphen with
  | @intro before after hBefore _ =>
      cases before with
      | nil =>
          intro c hHead
          cases hHead
          rfl
      | cons b before =>
          intro c hHead
          cases hHead
          exact Text.isDigit_of_isBlank
            (hBefore b List.mem_cons_self)

theorem begun_of_digits
    {digits : List Char}
    (hSome : digits ≠ [])
    (hAll : Digits.All digits)
    (rest : List Char) : Text.Begun (digits ++ rest) := by
  cases digits with
  | nil => exact absurd rfl hSome
  | cons d digits =>
      intro c hHead
      cases hHead
      exact Text.isBlank_of_isDigit
        (Digits.all_cons_iff.mp hAll).1

theorem IsYear.begun
    {year : Int}
    {part : List Char}
    (hYear : IsYear year part)
    (rest : List Char) : Text.Begun (part ++ rest) := by
  cases hYear with
  | minus =>
      intro c hHead
      cases hHead
      decide
  | plus =>
      intro c hHead
      cases hHead
      decide
  | bare hSome hAll => exact begun_of_digits hSome hAll rest

theorem IsNumber.begun
    {n : Nat}
    {part : List Char}
    (hNumber : IsNumber n part)
    (rest : List Char) : Text.Begun (part ++ rest) := by
  cases hNumber with
  | intro hSome hAll _ => exact begun_of_digits hSome hAll rest

theorem IsNumber.take?_append
    {n : Nat}
    {part rest : List Char}
    (hNumber : IsNumber n part)
    (hEnded : Digits.Ended rest) :
    Digits.take? 1 2 (part ++ rest) = some (n, rest) := by
  cases hNumber with
  | intro hSome hAll hFew =>
      exact Date.take?_append hSome hAll hFew hEnded

------------------------------------------------------------
-- Dates
------------------------------------------------------------

/- A text is read exactly if it spells a date. -/
theorem ofChars?_eq_some_iff
    {text : List Char}
    {d : Date} :
    ofChars? text = some d ↔ d.Spells text := by
  unfold ofChars?
  simp only [Option.bind_eq_bind, Option.bind_eq_some_iff,
    Prod.exists]
  constructor
  · intro hRead
    rcases hRead with
      ⟨year, _, hYear, _, hFirst, month, _, hMonth, _, hSecond,
        day, rest, hDay, hEnd⟩
    split at hEnd
    · rename_i hRest
      rcases Text.exists_skipBlanks text with
        ⟨blanks, hBlanks, hText⟩
      rcases exists_of_takeYear? hYear with
        ⟨yearPart, hYearPart, hYearText⟩
      rcases exists_of_skipHyphen? hFirst with
        ⟨first, hFirstPart, hFirstText⟩
      rcases exists_of_take? hMonth with
        ⟨monthPart, hMonthSome, hMonthAll, hMonthFew,
          hMonthText, hMonthN⟩
      rcases exists_of_skipHyphen? hSecond with
        ⟨second, hSecondPart, hSecondText⟩
      rcases exists_of_take? hDay with
        ⟨dayPart, hDaySome, hDayAll, hDayFew, hDayText, hDayN⟩
      rcases Text.exists_skipBlanks rest with
        ⟨last, hLast, hLastText⟩
      rw [hRest, List.append_nil] at hLastText
      rcases ofParts?_eq_some_iff.mp hEnd with
        ⟨hSameYear, hSameMonth, hSameDay⟩
      subst hLastText
      refine ⟨blanks, yearPart, first, monthPart, second,
        dayPart, rest, ?_, hBlanks, ?_, hFirstPart, ?_,
        hSecondPart, ?_, hLast⟩
      · rw [hText, hYearText, hFirstText, hMonthText,
          hSecondText, hDayText]
      · rw [hSameYear]
        exact hYearPart
      · rw [hSameMonth, hMonthN]
        exact .intro hMonthSome hMonthAll hMonthFew
      · rw [hSameDay, hDayN]
        exact .intro hDaySome hDayAll hDayFew
    · cases hEnd
  · intro hSpells
    rcases hSpells with
      ⟨blanks, year, first, month, second, day, rest, hText,
        hBlanks, hYear, hFirst, hMonth, hSecond, hDay, hRest⟩
    subst hText
    rw [Text.skipBlanks_append hBlanks (hYear.begun _)]
    refine ⟨d.year, _,
      takeYear?_append hYear (hFirst.ended _), _,
      skipHyphen?_append hFirst (hMonth.begun _), d.month, _,
      hMonth.take?_append (hSecond.ended _), _,
      skipHyphen?_append hSecond (hDay.begun _), d.day, rest,
      hDay.take?_append (ended_of_blank hRest), ?_⟩
    have hEnd : Text.skipBlanks rest = [] := by
      have hSkip :=
        Text.skipBlanks_append hRest
          (show Text.Begun [] by intro c hHead; cases hHead)
      rwa [List.append_nil] at hSkip
    rw [if_pos hEnd]
    exact ofParts?_eq_some_iff.mpr ⟨rfl, rfl, rfl⟩

------------------------------------------------------------
-- Written Dates
------------------------------------------------------------

/- A written number of two digits is a month or a day. -/
theorem isNumber_padded
    {n : Nat}
    (hFits : n < 10 ^ 2) :
    IsNumber n (Digits.padded 2 n) := by
  have hNumber :
      IsNumber (Nat.ofDigitChars 10 (Digits.padded 2 n) 0)
        (Digits.padded 2 n) :=
    .intro (Digits.padded_ne_nil 2 n) (Digits.all_padded 2 n)
      (Digits.length_padded (by decide) hFits).le
  rw [Digits.ofDigitChars_padded] at hNumber
  exact hNumber

/- A written year has a sign outside of four digits. -/
theorem isYear_yearChars (year : Int) :
    IsYear year (yearChars year) := by
  have hSome := Digits.padded_ne_nil 4 year.natAbs
  have hAll := Digits.all_padded 4 year.natAbs
  have hN := Digits.ofDigitChars_padded 4 year.natAbs
  unfold yearChars
  dsimp only
  split
  · rename_i hNegative
    have hYear := IsYear.minus hSome hAll
    rw [hN] at hYear
    have hSame : -(year.natAbs : Int) = year := by omega
    rw [hSame] at hYear
    exact hYear
  · rename_i hPositive
    have hSame : (year.natAbs : Int) = year := by omega
    split
    · have hYear := IsYear.plus hSome hAll
      rw [hN, hSame] at hYear
      exact hYear
    · have hFits : year.natAbs < 10 ^ 4 := by omega
      have hLength := Digits.length_padded
        (show 0 < 4 by decide) hFits
      have hYear := IsYear.bare hSome hAll hLength.le
      rw [hN, hSame] at hYear
      exact hYear

/- What is written for a date spells it. -/
theorem spells_chars (d : Date) : d.Spells d.chars := by
  have hMonth : d.month ≤ 12 := by
    have hSome :
        0 < Calendar.daysInMonth d.year d.month :=
      Nat.lt_of_lt_of_le d.valid.2.2.1 d.valid.2.2.2
    exact (Calendar.daysInMonth_pos_iff.mp hSome).2
  have hDay : d.day ≤ 31 :=
    Nat.le_trans d.valid.2.2.2
      (Calendar.daysInMonth_le _ _)
  have hNone : Text.Blank [] := by
    intro c hIn
    cases hIn
  have hHyphen : IsHyphen ['-'] := .intro hNone hNone
  refine ⟨[], yearChars d.year, ['-'],
    Digits.padded 2 d.month, ['-'], Digits.padded 2 d.day, [],
    ?_, hNone, isYear_yearChars _, hHyphen,
    isNumber_padded (by omega), hHyphen,
    isNumber_padded (by omega), hNone⟩
  simp [chars, civilChars]

/- What is written for a date reads back. -/
theorem ofChars?_chars (d : Date) :
    ofChars? d.chars = some d :=
  ofChars?_eq_some_iff.mpr d.spells_chars

end Date

end Criteria
