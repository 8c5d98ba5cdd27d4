import Criteria.Proofs.InstantReading
import Mathlib.Data.Rat.Floor
import Mathlib.Tactic.Linarith

/-
  This file proves which instant the text of an operand is
  read as.

  It is the one that the text denotes: the days from the
  first of 1970 to its date, the seconds of its clock time
  less its offset, and the first nine digits of its fraction.
  Texts whose civil times differ as their offsets do are read
  alike, and the order of what is read is that of the
  instants. A day that does not exist is refused.

  Key definitions include:
    * `Instant.Before`
    * `Instant.Stamp.IsOf`
    * `Instant.Stamp.civilTime`

  Main statements:
    * `Instant.floor_nanos`
    * `Coercion.instant_value`
-/

------------------------------------------------------------
-- Instants in Time
------------------------------------------------------------

namespace Criteria

namespace Instant

/- One instant comes before another. -/
def Before (t u : Instant) : Prop :=
  t.second < u.second ∨
    t.second = u.second ∧ t.nanosecond < u.nanosecond

/- The nanoseconds from the beginning of 1970. -/
def nanos (t : Instant) : Int :=
  t.second * 10 ^ 9 + t.nanosecond

/- The part of a second that digits after a point denote. -/
def fractionOf (digits : List Char) : ℚ :=
  Nat.ofDigitChars 10 digits 0 / 10 ^ digits.length

namespace Stamp

/-
  The seconds from the beginning of 1970 to the civil time of
  a stamp, whose date falls on a day, as if it were in
  universal time.
-/
def civilTime
    (s : Stamp)
    (days : Int) : ℚ :=
  days * 86400 + s.hour * 3600 + s.minute * 60 +
    s.clockSecond + fractionOf s.fraction

/- The seconds from the beginning of 1970 in universal time. -/
def time
    (s : Stamp)
    (days : Int) : ℚ :=
  s.civilTime days - s.offset

/- A text is that of a stamp that exists and is on a day. -/
structure IsOf
    (s : Stamp)
    (text : String)
    (days : Int) : Prop where
  spells : s.Spells text.toList
  valid : s.IsValid
  falls : Calendar.Falls days s.date

end Stamp

------------------------------------------------------------
-- Fractions
------------------------------------------------------------

theorem nanosOf_lt
    {digits : List Char}
    (hAll : Digits.All digits) : nanosOf digits < 10 ^ 9 := by
  have hTaken :
      Digits.All ((digits ++ List.replicate 9 '0').take 9) := by
    intro c hIn
    have hBoth :=
      Digits.all_append_iff.mpr
        ⟨hAll, Digits.all_replicate_zero 9⟩
    exact hBoth c (List.mem_of_mem_take hIn)
  have hLength :
      ((digits ++ List.replicate 9 '0').take 9).length = 9 := by
    rw [List.length_take, List.length_append,
      List.length_replicate]
    omega
  have hLess := Digits.ofDigitChars_lt hTaken
  rw [hLength] at hLess
  exact hLess

/-
  The nanoseconds of a fraction leave out less than one, and
  nothing if there are no more than nine digits.
-/
theorem exists_fractionOf_eq
    {digits : List Char}
    (hAll : Digits.All digits) :
    ∃ rest : ℚ, 0 ≤ rest ∧ rest < 1 ∧
      (digits.length ≤ 9 → rest = 0) ∧
      fractionOf digits * 10 ^ 9 = nanosOf digits + rest := by
  have hSplit := List.take_append_drop 9 digits
  have hDropped : Digits.All (digits.drop 9) :=
    fun c hIn => hAll c (List.mem_of_mem_drop hIn)
  have hNanos := nanosOf_eq digits
  have hLess := Digits.ofDigitChars_lt hDropped
  by_cases hShort : digits.length ≤ 9
  · refine ⟨0, le_refl 0, zero_lt_one, fun _ => rfl, ?_⟩
    rw [List.take_of_length_le hShort] at hNanos
    have hPower :
        (10 : ℚ) ^ 9 =
          10 ^ (9 - digits.length) * 10 ^ digits.length := by
      rw [← pow_add, Nat.sub_add_cancel hShort]
    rw [hNanos, fractionOf, hPower]
    push_cast
    field_simp
    ring
  · have hLength : (digits.take 9).length = 9 := by
      rw [List.length_take]
      omega
    have hDigits :
        Nat.ofDigitChars 10 digits 0 =
          10 ^ (digits.drop 9).length *
              Nat.ofDigitChars 10 (digits.take 9) 0 +
            Nat.ofDigitChars 10 (digits.drop 9) 0 := by
      rw [← Nat.ofDigitChars_eq_ofDigitChars_zero,
        ← Nat.ofDigitChars_append, hSplit]
    have hCount :
        digits.length = 9 + (digits.drop 9).length := by
      rw [List.length_drop]
      omega
    rw [hLength, Nat.sub_self, Nat.pow_zero, Nat.mul_one]
      at hNanos
    refine ⟨Nat.ofDigitChars 10 (digits.drop 9) 0 /
        10 ^ (digits.drop 9).length, by positivity, ?_, ?_, ?_⟩
    · rw [div_lt_one (by positivity)]
      exact_mod_cast hLess
    · intro hLeast
      exact absurd hLeast hShort
    · rw [fractionOf, hDigits, hCount, pow_add, hNanos]
      push_cast
      field_simp

theorem IsFraction.all
    {digits text : List Char}
    (hFraction : IsFraction digits text) :
    Digits.All digits := by
  cases hFraction with
  | none => exact Digits.all_nil
  | digits _ hAll => exact hAll

theorem Stamp.Spells.all
    {s : Stamp}
    {text : List Char}
    (hSpells : s.Spells text) : Digits.All s.fraction := by
  rcases hSpells with ⟨_, _, _, _, _, _, hFraction, _⟩
  exact hFraction.all

------------------------------------------------------------
-- Times without Leap Seconds
------------------------------------------------------------

namespace Stamp

theorem nanosecond_lt
    {s : Stamp}
    {text : List Char}
    (hSpells : s.Spells text)
    (hPlain : s.clockSecond < 60) :
    s.nanosecond < 10 ^ 9 := by
  have hLess := nanosOf_lt hSpells.all
  have hNoLeap : s.clockSecond ≠ 60 := by omega
  simpa [nanosecond, hNoLeap] using hLess

/-
  Without a leap second the nanoseconds of the instant are
  those of the time, as far as nine digits go.
-/
theorem exists_nanos_eq
    {s : Stamp}
    {text : List Char}
    (hSpells : s.Spells text)
    (hPlain : s.clockSecond < 60)
    (days : Int) :
    ∃ rest : ℚ, 0 ≤ rest ∧ rest < 1 ∧
      (s.fraction.length ≤ 9 → rest = 0) ∧
      s.time days * 10 ^ 9 =
        ((s.instantOn days).nanos : ℚ) + rest := by
  rcases exists_fractionOf_eq hSpells.all with
    ⟨rest, hLeast, hMost, hShort, hFraction⟩
  refine ⟨rest, hLeast, hMost, hShort, ?_⟩
  have hNoLeap : s.clockSecond ≠ 60 := by omega
  have hMin : min s.clockSecond 59 = s.clockSecond := by omega
  simp only [time, civilTime, instantOn, nanos, secondOfDay,
    nanosecond, hNoLeap, hMin, if_false, Nat.add_zero]
  push_cast
  linarith

/- The instant is the time without what nine digits leave. -/
theorem floor_nanos
    {s : Stamp}
    {text : List Char}
    (hSpells : s.Spells text)
    (hPlain : s.clockSecond < 60)
    (days : Int) :
    ⌊s.time days * 10 ^ 9⌋ = (s.instantOn days).nanos := by
  rcases exists_nanos_eq hSpells hPlain days with
    ⟨rest, hLeast, hMost, _, hTime⟩
  rw [Int.floor_eq_iff, hTime]
  constructor
  · linarith
  · linarith

end Stamp

/- Within the seconds, nanoseconds order instants. -/
theorem before_iff_nanos_lt
    {t u : Instant}
    (hFirst : t.nanosecond < 10 ^ 9)
    (hSecond : u.nanosecond < 10 ^ 9) :
    t.Before u ↔ t.nanos < u.nanos := by
  unfold Before nanos
  omega

theorem eq_of_nanos_eq
    {t u : Instant}
    (hFirst : t.nanosecond < 10 ^ 9)
    (hSecond : u.nanosecond < 10 ^ 9)
    (hSame : t.nanos = u.nanos) : t = u := by
  rcases t with ⟨second, nanosecond⟩
  rcases u with ⟨other, more⟩
  simp only [nanos] at hSame hFirst hSecond
  rw [Instant.mk.injEq]
  omega

namespace Stamp

section Order

variable {s r : Stamp}
variable {text other : List Char}

/- What comes before in time is not read as coming after. -/
theorem time_lt_of_before
    (hSpells : s.Spells text)
    (hOther : r.Spells other)
    (hPlain : s.clockSecond < 60)
    (hMore : r.clockSecond < 60)
    {days more : Int}
    (hBefore :
      (s.instantOn days).Before (r.instantOn more)) :
    s.time days < r.time more := by
  rw [before_iff_nanos_lt (nanosecond_lt hSpells hPlain)
    (nanosecond_lt hOther hMore)] at hBefore
  by_contra hLate
  have hScaled :
      r.time more * 10 ^ 9 ≤ s.time days * 10 ^ 9 := by
    linarith
  have hFloor := Int.floor_le_floor hScaled
  rw [floor_nanos hSpells hPlain, floor_nanos hOther hMore]
    at hFloor
  omega

/- Nine digits of a fraction are enough to tell times apart. -/
theorem before_of_time_lt
    (hSpells : s.Spells text)
    (hOther : r.Spells other)
    (hPlain : s.clockSecond < 60)
    (hMore : r.clockSecond < 60)
    (hShort : s.fraction.length ≤ 9)
    (hBrief : r.fraction.length ≤ 9)
    {days more : Int}
    (hTime : s.time days < r.time more) :
    (s.instantOn days).Before (r.instantOn more) := by
  rw [before_iff_nanos_lt (nanosecond_lt hSpells hPlain)
    (nanosecond_lt hOther hMore)]
  rcases exists_nanos_eq hSpells hPlain days with
    ⟨rest, _, _, hNone, hNanos⟩
  rcases exists_nanos_eq hOther hMore more with
    ⟨left, _, _, hNothing, hCount⟩
  rw [hNone hShort] at hNanos
  rw [hNothing hBrief] at hCount
  have hLess :
      ((s.instantOn days).nanos : ℚ) <
        (r.instantOn more).nanos := by
    linarith
  exact_mod_cast hLess

theorem instantOn_eq_of_time_eq
    (hSpells : s.Spells text)
    (hOther : r.Spells other)
    (hPlain : s.clockSecond < 60)
    (hMore : r.clockSecond < 60)
    {days more : Int}
    (hTime : s.time days = r.time more) :
    s.instantOn days = r.instantOn more := by
  apply eq_of_nanos_eq (nanosecond_lt hSpells hPlain)
    (nanosecond_lt hOther hMore)
  rw [← floor_nanos hSpells hPlain,
    ← floor_nanos hOther hMore, hTime]

end Order

end Stamp

end Instant

------------------------------------------------------------
-- Operands
------------------------------------------------------------

namespace Coercion

open Instant

theorem scalar_instant_eq_ok_iff
    {op text : String}
    {value : Value} :
    scalar op .instant (.string text) = .ok value ↔
      ∃ (s : Stamp) (days : Int), s.IsOf text days ∧
        value = .instant (s.instantOn days) := by
  rw [scalar_eq_ok_iff_read .instant]
  simp only [Json.readText?, Kind.read?, Option.some.injEq,
    exists_eq_left', Option.map_eq_some_iff,
    Instant.ofChars?_eq_some_iff]
  constructor
  · intro hRead
    rcases hRead with
      ⟨t, ⟨s, hSpells, hValid, hInstant⟩, hValue⟩
    refine ⟨s, s.date.daysFromEpoch, ⟨hSpells, hValid, ?_⟩, ?_⟩
    · exact Calendar.falls_iff.mpr ⟨hValid.1, rfl⟩
    · rw [← hValue, hInstant]
  · intro hStamp
    rcases hStamp with
      ⟨s, days, ⟨hSpells, hValid, hFalls⟩, hValue⟩
    have hDays := (Calendar.falls_iff.mp hFalls).2
    exact ⟨s.instantOn days,
      ⟨s, hSpells, hValid, by rw [hDays]⟩, hValue.symm⟩

theorem scalar_of_isOf
    {op text : String}
    {s : Stamp}
    {days : Int}
    (hOf : s.IsOf text days) :
    scalar op .instant (.string text) =
      .ok (.instant (s.instantOn days)) :=
  scalar_instant_eq_ok_iff.mpr ⟨s, days, hOf, rfl⟩

/- A date whose day does not exist is not read. -/
theorem takeDate?_eq_none
    {year month day : Nat}
    {rest : List Char}
    (hYear : year < 10 ^ 4)
    (hMonth : month < 10 ^ 2)
    (hDay : day < 10 ^ 2)
    (hMissing : ¬ Calendar.Civil.Exists ⟨year, month, day⟩) :
    takeDate?
        (Digits.padded 4 year ++
          '-' :: (Digits.padded 2 month ++
            '-' :: (Digits.padded 2 day ++ rest))) = none := by
  rw [Option.eq_none_iff_forall_not_mem]
  intro result hRead
  rcases result with ⟨date, left⟩
  rcases takeDate?_eq_some_iff.mp hRead with
    ⟨other, hSame, hOther, hTwo, hLast, hText⟩
  rcases Digits.eq_of_padded_append_eq (by decide) hYear
    hOther hText with ⟨hYears, hText⟩
  rw [List.cons.injEq] at hText
  rcases Digits.eq_of_padded_append_eq (by decide) hMonth
    hTwo hText.2 with ⟨hMonths, hText⟩
  rw [List.cons.injEq] at hText
  rcases Digits.eq_of_padded_append_eq (by decide) hDay
    hLast hText.2 with ⟨hDays, _⟩
  have hValid := date.valid
  rw [hSame, ← hYears, ← hMonths, ← hDays] at hValid
  exact hMissing ⟨hValid.2.2.1, hValid.2.2.2⟩

theorem scalar_of_missingDay
    {op text : String}
    {year month day : Nat}
    {rest : List Char}
    (hYear : year < 10 ^ 4)
    (hMonth : month < 10 ^ 2)
    (hDay : day < 10 ^ 2)
    (hText :
      text.toList =
        Digits.padded 4 year ++
          '-' :: (Digits.padded 2 month ++
            '-' :: (Digits.padded 2 day ++ rest)))
    (hMissing : ¬ Calendar.Civil.Exists ⟨year, month, day⟩) :
    scalar op .instant (.string text) =
      .error (.invalidOperand op
        (.unreadable text .instant)) := by
  apply scalar_eq_error_of_unread .instant
  rw [Kind.read?, Option.map_eq_none_iff, hText,
    Instant.ofChars?,
    takeDate?_eq_none hYear hMonth hDay hMissing]
  rfl

/-
  A text is read exactly if it is that of a stamp that
  exists, and as the instant of the stamp. If the civil
  times of two stamps differ as their offsets do, the texts
  are read alike, with leap seconds, where the seconds and
  the nanoseconds are compared, and without them. In that
  case the order of what is read is that of the times, to
  the ninth digit of their fractions. A text with a day that
  does not exist is refused.
-/
theorem instant_value (op : String) :
    (∀ text value,
      scalar op .instant (.string text) = .ok value ↔
        ∃ (s : Stamp) (days : Int), s.IsOf text days ∧
          value = .instant
            ⟨days * 86400 + s.secondOfDay - s.offset,
              s.nanosecond⟩) ∧
    (∀ (s r : Stamp) (text other : String) (days more : Int),
      s.IsOf text days → r.IsOf other more →
        (days * 86400 + s.secondOfDay) -
            (more * 86400 + r.secondOfDay) =
          s.offset - r.offset →
        s.nanosecond = r.nanosecond →
        scalar op .instant (.string text) =
          scalar op .instant (.string other)) ∧
    (∀ (s r : Stamp) (text other : String) (days more : Int),
      s.IsOf text days → r.IsOf other more →
        s.clockSecond < 60 → r.clockSecond < 60 →
        ∃ t u : Instant,
          scalar op .instant (.string text) =
              .ok (.instant t) ∧
            scalar op .instant (.string other) =
              .ok (.instant u) ∧
            (s.civilTime days - r.civilTime more =
                s.offset - r.offset → t = u) ∧
            (t.Before u ↔
              ⌊s.time days * 10 ^ 9⌋ <
                ⌊r.time more * 10 ^ 9⌋) ∧
            (t.Before u → s.time days < r.time more) ∧
            (s.fraction.length ≤ 9 → r.fraction.length ≤ 9 →
              s.time days < r.time more → t.Before u)) ∧
    (∀ (text : String) (year month day : Nat)
        (rest : List Char),
      year < 10 ^ 4 → month < 10 ^ 2 → day < 10 ^ 2 →
        text.toList =
          Digits.padded 4 year ++
            '-' :: (Digits.padded 2 month ++
              '-' :: (Digits.padded 2 day ++ rest)) →
        ¬ Calendar.Civil.Exists ⟨year, month, day⟩ →
        scalar op .instant (.string text) =
          .error (.invalidOperand op
            (.unreadable text .instant))) := by
  refine ⟨?_, ?_, ?_, ?_⟩
  · intro text value
    exact scalar_instant_eq_ok_iff
  · intro s r text other days more hOf hOther hSecond hNanos
    rw [scalar_of_isOf hOf, scalar_of_isOf hOther]
    have hSame :
        days * 86400 + s.secondOfDay - s.offset =
          more * 86400 + r.secondOfDay - r.offset := by
      omega
    rw [Stamp.instantOn, Stamp.instantOn, hSame, hNanos]
  · intro s r text other days more hOf hOther hPlain hMore
    refine ⟨s.instantOn days, r.instantOn more,
      scalar_of_isOf hOf, scalar_of_isOf hOther,
      ?_, ?_, ?_, ?_⟩
    · intro hCivil
      apply Stamp.instantOn_eq_of_time_eq hOf.spells
        hOther.spells hPlain hMore
      simp only [Stamp.time]
      linarith
    · rw [Stamp.floor_nanos hOf.spells hPlain,
        Stamp.floor_nanos hOther.spells hMore]
      exact before_iff_nanos_lt
        (Stamp.nanosecond_lt hOf.spells hPlain)
        (Stamp.nanosecond_lt hOther.spells hMore)
    · intro hBefore
      exact Stamp.time_lt_of_before hOf.spells hOther.spells
        hPlain hMore hBefore
    · intro hShort hBrief hTime
      exact Stamp.before_of_time_lt hOf.spells hOther.spells
        hPlain hMore hShort hBrief hTime
  · intro text year month day rest hYear hMonth hDay hText
      hMissing
    exact scalar_of_missingDay hYear hMonth hDay hText hMissing

/- A leap second, a leap day and a day that is none. -/
theorem instant_value_atBoundaries :
    scalar "lt" .instant
        (.string "2017-01-01T00:59:60.5+01:00") =
      scalar "lt" .instant
        (.string "2016-12-31 23:59:60.50z") ∧
    (∃ t u : Instant,
      scalar "lt" .instant
          (.string "2024-02-29T23:30:00-01:30") =
        .ok (.instant t) ∧
      scalar "lt" .instant
          (.string "2024-03-01t01:00:00.001Z") =
        .ok (.instant u) ∧ t.Before u) ∧
    scalar "lt" .instant
        (.string "1900-02-29T00:00:00Z") =
      .error (.invalidOperand "lt"
        (.unreadable "1900-02-29T00:00:00Z" .instant)) := by
  have hLaws := instant_value "lt"
  refine ⟨?_, ?_, ?_⟩
  · have hHere :
        Stamp.IsOf ⟨2017, 1, 1, 0, 59, 60, ['5'], 3600⟩
          "2017-01-01T00:59:60.5+01:00" 17167 := by
      refine ⟨⟨by decide, 'T',
        ['.', '5'], "+01:00".toList, rfl, .inl rfl,
        .digits (by decide) (by decide),
        offset?_eq_some_iff.mp rfl⟩, ?_, ?_⟩
      · exact ⟨by decide, by decide, by decide, by decide⟩
      · exact Calendar.falls_iff.mpr ⟨by decide, by decide⟩
    have hThere :
        Stamp.IsOf ⟨2016, 12, 31, 23, 59, 60, ['5', '0'], 0⟩
          "2016-12-31 23:59:60.50z" 17166 := by
      refine ⟨⟨by decide, ' ',
        ['.', '5', '0'], "z".toList, rfl, .inr (.inr rfl),
        .digits (by decide) (by decide),
        offset?_eq_some_iff.mp rfl⟩, ?_, ?_⟩
      · exact ⟨by decide, by decide, by decide, by decide⟩
      · exact Calendar.falls_iff.mpr ⟨by decide, by decide⟩
    exact hLaws.2.1 _ _ _ _ _ _ hHere hThere (by decide)
      (by decide)
  · have hHere :
        Stamp.IsOf ⟨2024, 2, 29, 23, 30, 0, [], -5400⟩
          "2024-02-29T23:30:00-01:30" 19782 := by
      refine ⟨⟨by decide, 'T', [],
        "-01:30".toList, rfl, .inl rfl, .none,
        offset?_eq_some_iff.mp rfl⟩, ?_, ?_⟩
      · exact ⟨by decide, by decide, by decide, by decide⟩
      · exact Calendar.falls_iff.mpr ⟨by decide, by decide⟩
    have hThere :
        Stamp.IsOf ⟨2024, 3, 1, 1, 0, 0, ['0', '0', '1'], 0⟩
          "2024-03-01t01:00:00.001Z" 19783 := by
      refine ⟨⟨by decide, 't',
        ['.', '0', '0', '1'], "Z".toList, rfl,
        .inr (.inl rfl),
        .digits (by decide) (by decide),
        offset?_eq_some_iff.mp rfl⟩, ?_, ?_⟩
      · exact ⟨by decide, by decide, by decide, by decide⟩
      · exact Calendar.falls_iff.mpr ⟨by decide, by decide⟩
    rcases hLaws.2.2.1 _ _ _ _ _ _ hHere hThere (by decide)
      (by decide) with ⟨t, u, hFirst, hSecond, _, _, _, hOrder⟩
    refine ⟨t, u, hFirst, hSecond, ?_⟩
    apply hOrder (by decide) (by decide)
    have hNone : fractionOf [] = 0 := by norm_num [fractionOf]
    have hMilli : fractionOf ['0', '0', '1'] = 1 / 1000 := by
      have hDigits :
          Nat.ofDigitChars 10 ['0', '0', '1'] 0 = 1 := by
        decide
      norm_num [fractionOf, hDigits]
    simp only [Stamp.time, Stamp.civilTime, hNone, hMilli]
    norm_num
  · exact hLaws.2.2.2 _ 1900 2 29 "T00:00:00Z".toList
      (by decide) (by decide) (by decide) rfl
      (by decide)

end Coercion

end Criteria
