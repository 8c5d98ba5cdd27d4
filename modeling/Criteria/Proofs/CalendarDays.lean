import Criteria.Calendar.Date
import Mathlib.Data.Int.Init

/-
  This file proves that dates are counted day by day.

  The day after a day is the next one of its month, the first
  of the next month, or the first of the next year. From the
  first day of 1970, which is the day zero, every date is
  reached by going on or back a day at a time, and only with
  the number that the calendar counts for it.

  Key definitions include:
    * `Calendar.Civil`
    * `Calendar.Civil.next`
    * `Calendar.Falls`

  Main statements:
    * `Calendar.daysFromEpoch_next`
    * `Calendar.falls_iff`
-/

------------------------------------------------------------
-- Days of the Calendar
------------------------------------------------------------

namespace Criteria

namespace Calendar

/- A year, a month and a day of the month. -/
structure Civil where
  year : Int
  month : Nat
  day : Nat
deriving DecidableEq

namespace Civil

def Exists (c : Civil) : Prop :=
  1 ≤ c.day ∧ c.day ≤ daysInMonth c.year c.month

instance (c : Civil) : Decidable c.Exists :=
  inferInstanceAs (Decidable (_ ∧ _))

def next (c : Civil) : Civil :=
  if c.day < daysInMonth c.year c.month then
    { c with day := c.day + 1 }
  else if c.month < 12 then
    { c with month := c.month + 1, day := 1 }
  else { year := c.year + 1, month := 1, day := 1 }

def daysFromEpoch (c : Civil) : Int :=
  Calendar.daysFromEpoch c.year c.month c.day

end Civil

/-
  A date falls on a number of days after the first day of
  1970, or before it if the number is negative.
-/
inductive Falls : Int → Civil → Prop where
  | epoch : Falls 0 ⟨1970, 1, 1⟩
  | next
      {days : Int}
      {c : Civil}
      (hDay : Falls days c) : Falls (days + 1) c.next
  | previous
      {days : Int}
      {c : Civil}
      (hExists : c.Exists)
      (hDay : Falls days c.next) : Falls (days - 1) c

------------------------------------------------------------
-- Lengths of Months and Years
------------------------------------------------------------

/- There are twelve months, and each has days. -/
theorem daysInMonth_pos_iff
    {year : Int}
    {month : Nat} :
    0 < daysInMonth year month ↔ 1 ≤ month ∧ month ≤ 12 := by
  constructor
  · intro hSome
    unfold daysInMonth at hSome
    split at hSome <;> omega
  · intro hMonth
    unfold daysInMonth
    split
    case h_12 => split <;> decide
    case h_13 => grind
    all_goals decide

theorem daysInMonth_le
    (year : Int)
    (month : Nat) : daysInMonth year month ≤ 31 := by
  unfold daysInMonth
  split
  case h_12 => split <;> decide
  all_goals decide

theorem daysInMonth_december (year : Int) :
    daysInMonth year 12 = 31 := rfl

/- A year before December has eleven months of days. -/
theorem daysBeforeMonth_december (year : Int) :
    daysBeforeMonth year 12 =
      if isLeapYear year then 335 else 334 := by
  simp only [daysBeforeMonth, daysInMonth]
  split <;> rfl

theorem isLeapYear_iff (year : Int) :
    isLeapYear year = true ↔
      year % 4 = 0 ∧ (year % 100 ≠ 0 ∨ year % 400 = 0) := by
  simp only [isLeapYear, decide_eq_true_eq]

/- A year has as many days as its months. -/
theorem daysBeforeYear_succ (year : Int) :
    daysBeforeYear (year + 1) =
      daysBeforeYear year + daysBeforeMonth year 12 + 31 := by
  rw [daysBeforeMonth_december]
  unfold daysBeforeYear
  by_cases hLeap : isLeapYear year = true
  · rw [if_pos hLeap]
    rw [isLeapYear_iff] at hLeap
    omega
  · rw [if_neg hLeap]
    rw [isLeapYear_iff] at hLeap
    omega

------------------------------------------------------------
-- Counted Days
------------------------------------------------------------

theorem Civil.Exists.month_le
    {c : Civil}
    (hExists : c.Exists) : 1 ≤ c.month ∧ c.month ≤ 12 := by
  rcases hExists with ⟨hLeast, hMost⟩
  apply (@daysInMonth_pos_iff c.year c.month).mp
  omega

/- The day after a day exists. -/
theorem Civil.Exists.next
    {c : Civil}
    (hExists : c.Exists) : c.next.Exists := by
  have hMonth := hExists.month_le
  unfold Civil.next
  split
  · rename_i hDay
    exact ⟨Nat.le_add_left 1 c.day, hDay⟩
  · split
    · have hDays :
          0 < daysInMonth c.year (c.month + 1) :=
        daysInMonth_pos_iff.mpr (by omega)
      exact ⟨Nat.le_refl 1, hDays⟩
    · have hDays : 0 < daysInMonth (c.year + 1) 1 :=
        daysInMonth_pos_iff.mpr (by decide)
      exact ⟨Nat.le_refl 1, hDays⟩

/- The count goes up by one from a day to the next. -/
theorem daysFromEpoch_next
    {c : Civil}
    (hExists : c.Exists) :
    c.next.daysFromEpoch = c.daysFromEpoch + 1 := by
  have hMonth := hExists.month_le
  unfold Civil.next
  split
  · simp only [Civil.daysFromEpoch, Calendar.daysFromEpoch]
    omega
  · rename_i hLast
    have hDay : c.day = daysInMonth c.year c.month := by
      have hMost := hExists.2
      omega
    split
    · simp only [Civil.daysFromEpoch,
        Calendar.daysFromEpoch, daysBeforeMonth, hDay]
      omega
    · have hDecember : c.month = 12 := by omega
      simp only [Civil.daysFromEpoch,
        Calendar.daysFromEpoch, hDay, hDecember,
        daysBeforeYear_succ, daysInMonth_december]
      have hJanuary : daysBeforeMonth (c.year + 1) 1 = 0 :=
        rfl
      omega

/- A date falls only on the day that is counted for it. -/
theorem Falls.exists_and_eq
    {days : Int}
    {c : Civil}
    (hFalls : Falls days c) :
    c.Exists ∧ days = c.daysFromEpoch := by
  induction hFalls with
  | epoch => exact ⟨by decide, by decide⟩
  | next _ ih =>
      refine ⟨ih.1.next, ?_⟩
      rw [daysFromEpoch_next ih.1, ih.2]
  | previous hExists _ ih =>
      refine ⟨hExists, ?_⟩
      rw [ih.2, daysFromEpoch_next hExists]
      omega

------------------------------------------------------------
-- Every Date
------------------------------------------------------------

/- A date falls on some day. -/
def Reached (c : Civil) : Prop :=
  ∃ days, Falls days c

theorem reached_next_iff
    {c : Civil}
    (hExists : c.Exists) :
    Reached c.next ↔ Reached c := by
  constructor
  · intro hNext
    rcases hNext with ⟨days, hFalls⟩
    exact ⟨days - 1, .previous hExists hFalls⟩
  · intro hReached
    rcases hReached with ⟨days, hFalls⟩
    exact ⟨days + 1, .next hFalls⟩

/- From the first day of a month to the others. -/
theorem reached_day_iff
    {year : Int}
    {month day : Nat}
    (hMost : day + 1 ≤ daysInMonth year month) :
    Reached ⟨year, month, day + 1⟩ ↔
      Reached ⟨year, month, 1⟩ := by
  induction day with
  | zero => exact Iff.rfl
  | succ day ih =>
      have hExists :
          Civil.Exists ⟨year, month, day + 1⟩ :=
        ⟨Nat.le_add_left 1 day, by simp only []; omega⟩
      have hNext :
          Civil.next ⟨year, month, day + 1⟩ =
            ⟨year, month, day + 1 + 1⟩ :=
        if_pos hMost
      rw [← hNext, reached_next_iff hExists]
      exact ih (by omega)

/- From the last day of a month to the day after it. -/
theorem reached_last_iff
    {year : Int}
    {month : Nat}
    (hLeast : 1 ≤ month)
    (hMost : month ≤ 12) :
    Reached (Civil.next
        ⟨year, month, daysInMonth year month⟩) ↔
      Reached ⟨year, month, 1⟩ := by
  have hDays : 0 < daysInMonth year month :=
    daysInMonth_pos_iff.mpr ⟨hLeast, hMost⟩
  have hExists :
      Civil.Exists
        ⟨year, month, daysInMonth year month⟩ :=
    ⟨hDays, Nat.le_refl _⟩
  rw [reached_next_iff hExists]
  have hDay :=
    @reached_day_iff year month (daysInMonth year month - 1)
      (by omega)
  rw [Nat.sub_add_cancel hDays] at hDay
  exact hDay

/- From the first month of a year to the others. -/
theorem reached_month_iff
    {year : Int}
    {month : Nat}
    (hMost : month + 1 ≤ 12) :
    Reached ⟨year, month + 1, 1⟩ ↔ Reached ⟨year, 1, 1⟩ := by
  induction month with
  | zero => exact Iff.rfl
  | succ month ih =>
      have hNext :
          Civil.next
              ⟨year, month + 1,
                daysInMonth year (month + 1)⟩ =
            ⟨year, month + 1 + 1, 1⟩ := by
        unfold Civil.next
        rw [if_neg (Nat.lt_irrefl _), if_pos (by
          simp only []; omega)]
      rw [← hNext, reached_last_iff (by omega) (by omega)]
      exact ih (by omega)

/- From the first year to the others, on and back. -/
theorem reached_year_iff (year : Int) :
    Reached ⟨year + 1, 1, 1⟩ ↔ Reached ⟨year, 1, 1⟩ := by
  have hNext :
      Civil.next ⟨year, 12, daysInMonth year 12⟩ =
        ⟨year + 1, 1, 1⟩ := by
    unfold Civil.next
    rw [if_neg (Nat.lt_irrefl _), if_neg (Nat.lt_irrefl 12)]
  rw [← hNext, reached_last_iff (by decide) (by decide)]
  exact reached_month_iff (by decide)

theorem reached_newYear (year : Int) :
    Reached ⟨year, 1, 1⟩ := by
  refine Int.inductionOn' year 1970 ⟨0, .epoch⟩ ?_ ?_
  · intro year _ ih
    exact (reached_year_iff year).mpr ih
  · intro year _ ih
    have hBack := reached_year_iff (year - 1)
    rw [Int.sub_add_cancel] at hBack
    exact hBack.mp ih

theorem reached_of_exists
    {c : Civil}
    (hExists : c.Exists) : Reached c := by
  rcases c with ⟨year, month, day⟩
  have hMonth := hExists.month_le
  rcases hExists with ⟨hLeast, hMost⟩
  dsimp only at hMonth hLeast hMost
  have hFirst :=
    @reached_month_iff year (month - 1) (by omega)
  have hDay := @reached_day_iff year month (day - 1) (by omega)
  rw [Nat.sub_add_cancel hMonth.1] at hFirst
  rw [Nat.sub_add_cancel hLeast] at hDay
  exact hDay.mpr (hFirst.mpr (reached_newYear year))

/- A date falls on a day exactly if it is counted for it. -/
theorem falls_iff
    {days : Int}
    {c : Civil} :
    Falls days c ↔ c.Exists ∧ days = c.daysFromEpoch := by
  constructor
  · exact Falls.exists_and_eq
  · intro hCounted
    rcases hCounted with ⟨hExists, hDays⟩
    rcases reached_of_exists hExists with ⟨other, hFalls⟩
    rw [hDays, ← hFalls.exists_and_eq.2]
    exact hFalls

end Calendar

namespace Date

/- A date has the parts that it is made of. -/
theorem ofParts?_eq_some_iff
    {year : Int}
    {month day : Nat}
    {d : Date} :
    ofParts? year month day = some d ↔
      d.year = year ∧ d.month = month ∧ d.day = day := by
  unfold ofParts?
  constructor
  · intro hParts
    split at hParts
    · cases hParts
      exact ⟨rfl, rfl, rfl⟩
    · cases hParts
  · intro hParts
    rcases hParts with ⟨hYear, hMonth, hDay⟩
    subst hYear hMonth hDay
    exact dif_pos d.valid

end Date

end Criteria
