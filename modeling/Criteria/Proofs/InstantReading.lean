import Criteria.Proofs.CalendarDays
import Criteria.Proofs.DigitTexts
import Criteria.Proofs.TextOperands

/-
  This file proves which texts instants are read from, part
  by part.

  A stamp is a date, a clock time with the digits of its
  fraction, and an offset. Its text has so many digits for
  each number, one of three separators, and the offset as a
  letter or with one of three signs. A text is read exactly
  if it is the text of a stamp whose day exists and whose
  clock time does.

  Key definitions include:
    * `Instant.Stamp`
    * `Instant.Stamp.Spells`
    * `Instant.Stamp.IsValid`
    * `Instant.Stamp.second`
    * `Instant.Stamp.nanosecond`

  Main statements:
    * `Instant.takeDate?_eq_some_iff`
    * `Instant.takeTime?_append`
    * `Instant.exists_of_takeTime?`
    * `Instant.offset?_eq_some_iff`
    * `Instant.ofChars?_eq_some_iff`
-/

------------------------------------------------------------
-- Stamps
------------------------------------------------------------

namespace Criteria

namespace Instant

/-
  The parts of an instant as they are written. The offset is
  in seconds, positive to the east.
-/
structure Stamp where
  year : Nat
  month : Nat
  day : Nat
  hour : Nat
  minute : Nat
  clockSecond : Nat
  fraction : List Char
  offset : Int

/- Hours and minutes below one day, and their seconds. -/
inductive IsClockOffset : Nat → List Char → Prop where
  | intro
      {hour minute : Nat}
      (hHour : hour < 24)
      (hMinute : minute < 60) :
      IsClockOffset (hour * 3600 + minute * 60)
        (Digits.padded 2 hour ++
          ':' :: Digits.padded 2 minute)

/- The spellings of an offset. -/
inductive IsOffset : Int → List Char → Prop where
  | universal
      {c : Char}
      (hLetter : c = 'Z' ∨ c = 'z') : IsOffset 0 [c]
  | east
      {seconds : Nat}
      {text : List Char}
      (hClock : IsClockOffset seconds text) :
      IsOffset seconds ('+' :: text)
  | west
      {seconds : Nat}
      {sign : Char}
      {text : List Char}
      (hSign : sign = '-' ∨ sign = '\u2212')
      (hClock : IsClockOffset seconds text) :
      IsOffset (-seconds) (sign :: text)

/- The digits of a fraction, after a point if there are any. -/
inductive IsFraction : List Char → List Char → Prop where
  | none : IsFraction [] []
  | digits
      {digits : List Char}
      (hSome : digits ≠ [])
      (hAll : Digits.All digits) :
      IsFraction digits ('.' :: digits)

/- A date and a clock time are joined by this. -/
def IsSeparator (c : Char) : Prop :=
  c = 'T' ∨ c = 't' ∨ c = ' '

/-
  The nanoseconds of a fraction are its first nine digits,
  with zeros after the last.
-/
def nanosOf (digits : List Char) : Nat :=
  Nat.ofDigitChars 10
    ((digits ++ List.replicate 9 '0').take 9) 0

namespace Stamp

def dateText (s : Stamp) : List Char :=
  Digits.padded 4 s.year ++ '-' :: (Digits.padded 2 s.month ++
    '-' :: Digits.padded 2 s.day)

def clockText (s : Stamp) : List Char :=
  Digits.padded 2 s.hour ++ ':' :: (Digits.padded 2 s.minute ++
    ':' :: Digits.padded 2 s.clockSecond)

/- The numbers of a stamp fit the digits written for them. -/
def Fits (s : Stamp) : Prop :=
  s.year < 10 ^ 4 ∧ s.month < 10 ^ 2 ∧ s.day < 10 ^ 2 ∧
    s.hour < 10 ^ 2 ∧ s.minute < 10 ^ 2 ∧
    s.clockSecond < 10 ^ 2

instance (s : Stamp) : Decidable s.Fits :=
  inferInstanceAs (Decidable (_ ∧ _))

/- A text of the internet form has the parts of a stamp. -/
def Spells
    (s : Stamp)
    (text : List Char) : Prop :=
  s.Fits ∧ ∃ separator fraction offset,
    text = s.dateText ++ separator ::
      (s.clockText ++ (fraction ++ offset)) ∧
    IsSeparator separator ∧
    IsFraction s.fraction fraction ∧
    IsOffset s.offset offset

def date (s : Stamp) : Calendar.Civil :=
  ⟨s.year, s.month, s.day⟩

/- The day exists, and so does the clock time. -/
def IsValid (s : Stamp) : Prop :=
  s.date.Exists ∧ s.hour < 24 ∧ s.minute < 60 ∧
    s.clockSecond ≤ 60

/- The second of the day; a leap second belongs to the last. -/
def secondOfDay (s : Stamp) : Nat :=
  s.hour * 3600 + s.minute * 60 + min s.clockSecond 59

/- A leap second is a thousand million nanoseconds later. -/
def nanosecond (s : Stamp) : Nat :=
  nanosOf s.fraction +
    if s.clockSecond = 60 then 10 ^ 9 else 0

/- The instant of a stamp whose date falls on a day. -/
def instantOn
    (s : Stamp)
    (days : Int) : Instant :=
  ⟨days * 86400 + s.secondOfDay - s.offset, s.nanosecond⟩

end Stamp

------------------------------------------------------------
-- Single Characters
------------------------------------------------------------

theorem skip?_eq_some_iff
    {c : Char}
    {text rest : List Char} :
    skip? c text = some rest ↔ text = c :: rest := by
  unfold skip?
  split
  · rename_i d other
    by_cases hSame : d = c
    · simp [hSame]
    · simp [hSame]
  · simp

theorem skipSeparator?_eq_some_iff
    {text rest : List Char} :
    skipSeparator? text = some rest ↔
      ∃ separator, text = separator :: rest ∧
        IsSeparator separator := by
  unfold skipSeparator?
  constructor
  · intro hSkip
    split at hSkip
    · cases hSkip
      exact ⟨'T', rfl, .inl rfl⟩
    · cases hSkip
      exact ⟨'t', rfl, .inr (.inl rfl)⟩
    · cases hSkip
      exact ⟨' ', rfl, .inr (.inr rfl)⟩
    · cases hSkip
  · intro hText
    rcases hText with ⟨separator, hText, hOne⟩
    subst hText
    rcases hOne with hOne | hOne | hOne
    · subst hOne
      rfl
    · subst hOne
      rfl
    · subst hOne
      rfl

theorem takeDigits?_eq_some_iff
    {count n : Nat}
    {text rest : List Char}
    (hCount : 0 < count) :
    takeDigits? count text = some (n, rest) ↔
      n < 10 ^ count ∧ text = Digits.padded count n ++ rest :=
  Digits.take?_width_eq_some_iff hCount

------------------------------------------------------------
-- Dates
------------------------------------------------------------

theorem takeDate?_eq_some_iff
    {text rest : List Char}
    {date : Date} :
    takeDate? text = some (date, rest) ↔
      ∃ year : Nat, date.year = year ∧ year < 10 ^ 4 ∧
        date.month < 10 ^ 2 ∧ date.day < 10 ^ 2 ∧
        text = Digits.padded 4 year ++
          '-' :: (Digits.padded 2 date.month ++
            '-' :: (Digits.padded 2 date.day ++ rest)) := by
  unfold takeDate?
  simp only [Option.bind_eq_bind, Option.bind_eq_some_iff,
    Prod.exists, skip?_eq_some_iff, Option.some.injEq,
    Prod.mk.injEq, Date.ofParts?_eq_some_iff,
    takeDigits?_eq_some_iff (show 0 < 4 by decide),
    takeDigits?_eq_some_iff (show 0 < 2 by decide)]
  constructor
  · intro hRead
    rcases hRead with
      ⟨year, _, ⟨hYear, hText⟩, _, hFirst, month, _,
        ⟨hMonth, hMonthText⟩, _, hSecond, day, _,
        ⟨hDay, hDayText⟩, _, ⟨hSameYear, hSameMonth, hSameDay⟩,
        hDate, hRest⟩
    subst hDate hRest hSameMonth hSameDay hText
    subst hFirst hMonthText
    subst hSecond hDayText
    exact ⟨year, hSameYear, hYear, hMonth, hDay, rfl⟩
  · intro hText
    rcases hText with
      ⟨year, hSameYear, hYear, hMonth, hDay, hText⟩
    exact ⟨year, _, ⟨hYear, hText⟩, _, rfl, date.month, _,
      ⟨hMonth, rfl⟩, _, rfl, date.day, _, ⟨hDay, rfl⟩, date,
      ⟨hSameYear, rfl, rfl⟩, rfl, rfl⟩

------------------------------------------------------------
-- Clock Times
------------------------------------------------------------

theorem ofTimeParts?_eq_some_iff
    {hour minute second nanosecond : Nat}
    {time : TimeOfDay} :
    TimeOfDay.ofParts? hour minute second nanosecond =
        some time ↔
      hour < 24 ∧ minute < 60 ∧ second ≤ 60 ∧
        time =
          ⟨hour * 3600 + minute * 60 + min second 59,
            nanosecond +
              if second = 60 then 10 ^ 9 else 0⟩ := by
  unfold TimeOfDay.ofParts?
  constructor
  · intro hParts
    dsimp only at hParts
    split at hParts
    · cases hParts
    · refine ⟨by omega, by omega, by omega, ?_⟩
      split at hParts
      · rename_i hLeap
        cases hParts
        simp [hLeap, TimeOfDay.nanosPerSecond, Nat.add_comm]
      · rename_i hLeap
        cases hParts
        have hMin : min second 59 = second := by omega
        simp [hLeap, hMin]
  · intro hParts
    rcases hParts with ⟨hHour, hMinute, hSecond, hTime⟩
    subst hTime
    rw [if_neg (by omega)]
    dsimp only
    by_cases hLeap : second = 60
    · simp [hLeap, TimeOfDay.nanosPerSecond, Nat.add_comm]
    · have hMin : min second 59 = second := by omega
      simp [hLeap, hMin]

theorem nanosOf_eq (digits : List Char) :
    nanosOf digits =
      Nat.ofDigitChars 10 (digits.take 9) 0 *
        10 ^ (9 - (digits.take 9).length) := by
  unfold nanosOf
  rw [List.take_append, Nat.ofDigitChars_append,
    List.take_replicate]
  have hZeros : min (9 - digits.length) 9 =
      9 - (digits.take 9).length := by
    rw [List.length_take]
    omega
  rw [hZeros, Nat.ofDigitChars_replicate_zero, Nat.mul_comm]

theorem nanoseconds?_eq_some_iff
    {n : Nat}
    {text rest : List Char} :
    Digits.nanoseconds? text = some (n, rest) ↔
      ∃ digits, digits ≠ [] ∧ text = digits ++ rest ∧
        Digits.All digits ∧ Digits.Ended rest ∧
        n = nanosOf digits := by
  unfold Digits.nanoseconds?
  constructor
  · intro hRead
    dsimp only at hRead
    split at hRead
    · cases hRead
    · rename_i hSome
      cases hRead
      refine ⟨_, hSome, ?_, Digits.all_takeWhile text,
        Digits.ended_drop_takeWhile text, ?_⟩
      · exact (List.prefix_iff_eq_append.mp
          (List.takeWhile_prefix _)).symm
      · rw [nanosOf_eq]
        rfl
  · intro hText
    rcases hText with ⟨digits, hSome, hText, hAll, hEnded, hN⟩
    subst hText hN
    rw [Digits.takeWhile_append_of_ended hAll hEnded]
    dsimp only
    rw [if_neg hSome, nanosOf_eq, List.drop_left]
    rfl

/- A text goes on neither with a digit nor with a point. -/
def FractionEnded (text : List Char) : Prop :=
  ∀ c, text.head? = some c → c.isDigit = false ∧ c ≠ '.'

theorem takeFraction?_append
    {digits fraction rest : List Char}
    (hFraction : IsFraction digits fraction)
    (hEnded : FractionEnded rest) :
    TimeOfDay.takeFraction? (fraction ++ rest) =
      some (nanosOf digits, rest) := by
  cases hFraction with
  | none =>
      unfold TimeOfDay.takeFraction?
      split
      · rename_i other hPoint
        rw [List.nil_append] at hPoint
        subst hPoint
        exact absurd rfl (hEnded '.' rfl).2
      · rfl
  | digits hSome hAll =>
      apply nanoseconds?_eq_some_iff.mpr
      exact ⟨digits, hSome, rfl, hAll,
        fun c hHead => (hEnded c hHead).1, rfl⟩

theorem exists_of_takeFraction?
    {n : Nat}
    {text rest : List Char}
    (hTake : TimeOfDay.takeFraction? text = some (n, rest)) :
    ∃ digits fraction, IsFraction digits fraction ∧
      text = fraction ++ rest ∧ n = nanosOf digits := by
  unfold TimeOfDay.takeFraction? at hTake
  split at hTake
  · rcases nanoseconds?_eq_some_iff.mp hTake with
      ⟨digits, hSome, hText, hAll, _, hN⟩
    subst hText
    exact ⟨digits, '.' :: digits, .digits hSome hAll, rfl, hN⟩
  · cases hTake
    exact ⟨[], [], .none, rfl, by decide⟩

theorem takeTime?_append
    {hour minute second : Nat}
    {digits fraction rest : List Char}
    (hHour : hour < 24)
    (hMinute : minute < 60)
    (hSecond : second ≤ 60)
    (hFraction : IsFraction digits fraction)
    (hEnded : FractionEnded rest) :
    takeTime?
        (Digits.padded 2 hour ++
          ':' :: (Digits.padded 2 minute ++
            ':' :: (Digits.padded 2 second ++
              (fraction ++ rest)))) =
      some
        (⟨hour * 3600 + minute * 60 + min second 59,
          nanosOf digits +
            if second = 60 then 10 ^ 9 else 0⟩, rest) := by
  unfold takeTime?
  simp only [Option.bind_eq_bind, Option.bind_eq_some_iff,
    Prod.exists, skip?_eq_some_iff, Option.some.injEq,
    Prod.mk.injEq, ofTimeParts?_eq_some_iff,
    takeDigits?_eq_some_iff (show 0 < 2 by decide)]
  exact ⟨hour, _, ⟨by omega, rfl⟩, _, rfl, minute, _,
    ⟨by omega, rfl⟩, _, rfl, second, _, ⟨by omega, rfl⟩, _, _,
    takeFraction?_append hFraction hEnded, _,
    ⟨hHour, hMinute, hSecond, rfl⟩, rfl, rfl⟩

theorem exists_of_takeTime?
    {text rest : List Char}
    {time : TimeOfDay}
    (hTake : takeTime? text = some (time, rest)) :
    ∃ hour minute second digits fraction,
      hour < 24 ∧ minute < 60 ∧ second ≤ 60 ∧
        IsFraction digits fraction ∧
        text = Digits.padded 2 hour ++
          ':' :: (Digits.padded 2 minute ++
            ':' :: (Digits.padded 2 second ++
              (fraction ++ rest))) ∧
        time =
          ⟨hour * 3600 + minute * 60 + min second 59,
            nanosOf digits +
              if second = 60 then 10 ^ 9 else 0⟩ := by
  unfold takeTime? at hTake
  simp only [Option.bind_eq_bind, Option.bind_eq_some_iff,
    Prod.exists, skip?_eq_some_iff, Option.some.injEq,
    Prod.mk.injEq, ofTimeParts?_eq_some_iff,
    takeDigits?_eq_some_iff (show 0 < 2 by decide)] at hTake
  rcases hTake with
    ⟨hour, _, ⟨_, hHourText⟩, _, hFirst, minute, _,
      ⟨_, hMinuteText⟩, _, hSecond, second, _,
      ⟨_, hSecondText⟩, nanosecond, _, hNanos, _,
      ⟨hHour, hMinute, hMost, hSame⟩, hTime, hRest⟩
  rcases exists_of_takeFraction? hNanos with
    ⟨digits, fraction, hFraction, hFractionText, hCount⟩
  subst hRest hCount hFractionText
  subst hTime
  refine ⟨hour, minute, second, digits, fraction, hHour,
    hMinute, hMost, hFraction, ?_, hSame⟩
  rw [hHourText, hFirst, hMinuteText, hSecond, hSecondText]

------------------------------------------------------------
-- Offsets
------------------------------------------------------------

theorem offsetOf?_eq_some_iff
    {text : List Char}
    {offset : Int} :
    offsetOf? text = some offset ↔
      ∃ seconds : Nat, IsClockOffset seconds text ∧
        (seconds : Int) = offset := by
  unfold offsetOf?
  simp only [Option.bind_eq_bind, Option.bind_eq_some_iff,
    Prod.exists, skip?_eq_some_iff,
    takeDigits?_eq_some_iff (show 0 < 2 by decide)]
  constructor
  · intro hRead
    rcases hRead with
      ⟨hour, _, ⟨_, hHourText⟩, _, hColon, minute, rest,
        ⟨_, hMinuteText⟩, hOffset⟩
    split at hOffset
    · rename_i hClock
      rcases hClock with ⟨hRest, hHour, hMinute⟩
      cases hOffset
      rw [hRest, List.append_nil] at hMinuteText
      rw [hHourText, hColon, hMinuteText]
      exact ⟨_, .intro hHour hMinute, rfl⟩
    · cases hOffset
  · intro hClock
    rcases hClock with ⟨seconds, hClock, hOffset⟩
    cases hClock with
    | @intro hour minute hHour hMinute =>
        refine ⟨hour, _, ⟨by omega, rfl⟩, _, rfl, minute, [],
          ⟨by omega, (List.append_nil _).symm⟩, ?_⟩
        rw [if_pos ⟨rfl, hHour, hMinute⟩, hOffset]

theorem negatedOffset_eq_some_iff
    {text : List Char}
    {offset : Int} :
    (offsetOf? text).map (- ·) = some offset ↔
      ∃ seconds : Nat, IsClockOffset seconds text ∧
        -(seconds : Int) = offset := by
  simp only [Option.map_eq_some_iff, offsetOf?_eq_some_iff]
  constructor
  · intro hRead
    rcases hRead with ⟨_, ⟨seconds, hClock, rfl⟩, hOffset⟩
    exact ⟨seconds, hClock, hOffset⟩
  · intro hClock
    rcases hClock with ⟨seconds, hClock, hOffset⟩
    exact ⟨seconds, ⟨seconds, hClock, rfl⟩, hOffset⟩

theorem offset?_eq_some_iff
    {text : List Char}
    {offset : Int} :
    offset? text = some offset ↔ IsOffset offset text := by
  constructor
  · intro hRead
    unfold offset? at hRead
    split at hRead
    · cases hRead
      exact .universal (.inl rfl)
    · cases hRead
      exact .universal (.inr rfl)
    · rcases offsetOf?_eq_some_iff.mp hRead with
        ⟨seconds, hClock, hOffset⟩
      subst hOffset
      exact .east hClock
    · rcases negatedOffset_eq_some_iff.mp hRead with
        ⟨seconds, hClock, hOffset⟩
      subst hOffset
      exact .west (.inl rfl) hClock
    · rcases negatedOffset_eq_some_iff.mp hRead with
        ⟨seconds, hClock, hOffset⟩
      subst hOffset
      exact .west (.inr rfl) hClock
    · cases hRead
  · intro hText
    cases hText with
    | universal hLetter =>
        rcases hLetter with hLetter | hLetter
        · subst hLetter
          rfl
        · subst hLetter
          rfl
    | east hClock =>
        exact offsetOf?_eq_some_iff.mpr ⟨_, hClock, rfl⟩
    | west hSign hClock =>
        rcases hSign with hSign | hSign
        · subst hSign
          exact negatedOffset_eq_some_iff.mpr
            ⟨_, hClock, rfl⟩
        · subst hSign
          exact negatedOffset_eq_some_iff.mpr
            ⟨_, hClock, rfl⟩

/- An offset starts with a letter or a sign. -/
theorem IsOffset.fractionEnded
    {offset : Int}
    {text : List Char}
    (hText : IsOffset offset text) : FractionEnded text := by
  intro c hHead
  cases hText with
  | universal hLetter =>
      cases hHead
      rcases hLetter with hLetter | hLetter
      · subst hLetter
        decide
      · subst hLetter
        decide
  | east =>
      cases hHead
      decide
  | west hSign =>
      cases hHead
      rcases hSign with hSign | hSign
      · subst hSign
        decide
      · subst hSign
        decide

------------------------------------------------------------
-- Instants
------------------------------------------------------------

/- What a text of the internet form is read as. -/
theorem ofChars?_eq_some_iff
    {text : List Char}
    {t : Instant} :
    ofChars? text = some t ↔
      ∃ s : Stamp, s.Spells text ∧ s.IsValid ∧
        t = s.instantOn s.date.daysFromEpoch := by
  unfold ofChars?
  simp only [Option.bind_eq_bind, Option.bind_eq_some_iff,
    Prod.exists, skipSeparator?_eq_some_iff, Option.some.injEq,
    offset?_eq_some_iff]
  constructor
  · intro hRead
    rcases hRead with
      ⟨date, _, hDate, _, ⟨separator, hJoin, hSeparator⟩, time,
        rest, hTime, offset, hOffset, hInstant⟩
    rcases takeDate?_eq_some_iff.mp hDate with
      ⟨year, hYear, hFour, hMonth, hDay, hDateText⟩
    rcases exists_of_takeTime? hTime with
      ⟨hour, minute, second, digits, fraction, hHour, hMinute,
        hSecond, hFraction, hTimeText, hSame⟩
    have hHourFits : hour < 10 ^ 2 := by omega
    have hMinuteFits : minute < 10 ^ 2 := by omega
    have hSecondFits : second < 10 ^ 2 := by omega
    refine ⟨⟨year, date.month, date.day, hour, minute, second,
      digits, offset⟩, ?_, ?_, ?_⟩
    · refine ⟨⟨hFour, hMonth, hDay, hHourFits, hMinuteFits,
        hSecondFits⟩, separator, fraction, rest, ?_,
        hSeparator, hFraction, hOffset⟩
      rw [hDateText, hJoin, hTimeText]
      simp [Stamp.dateText, Stamp.clockText]
    · refine ⟨?_, hHour, hMinute, hSecond⟩
      have hValid := date.valid
      rw [hYear] at hValid
      exact ⟨hValid.2.2.1, hValid.2.2.2⟩
    · subst hSame
      rw [← hInstant]
      simp only [ofCivil, Stamp.instantOn, Date.daysFromEpoch,
        Calendar.Civil.daysFromEpoch, Stamp.date, hYear]
      rfl
  · intro hStamp
    rcases hStamp with
      ⟨s, ⟨hFits, separator, fraction, offset, hText,
        hSeparator, hFraction, hOffset⟩, hValid, hInstant⟩
    rcases hFits with ⟨hYear, hMonth, hDay, _⟩
    rcases hValid with ⟨hExists, hHour, hMinute, hSecond⟩
    have hParts : Date.IsValid s.year s.month s.day := by
      refine ⟨?_, ?_, hExists.1, hExists.2⟩
      · simp only [Date.leastYear]
        omega
      · simp only [Date.mostYear]
        omega
    refine ⟨⟨s.year, s.month, s.day, hParts⟩, _,
      takeDate?_eq_some_iff.mpr ⟨s.year, rfl, hYear, hMonth,
        hDay, ?_⟩, _, ⟨separator, rfl, hSeparator⟩, _, offset,
      takeTime?_append hHour hMinute hSecond hFraction
        hOffset.fractionEnded, s.offset, hOffset, ?_⟩
    · rw [hText]
      simp [Stamp.dateText, Stamp.clockText]
    · rw [hInstant]
      rfl

end Instant

end Criteria
