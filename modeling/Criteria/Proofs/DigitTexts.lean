import Criteria.Text.Digits
import Mathlib.Algebra.Order.Ring.Nat
import Mathlib.Data.List.TakeWhile

/-
  This file proves how numbers are written as and read from
  decimal digits.

  Texts of digits of one length are told apart by their
  numbers, so that a number has one text of each width it
  fits. What is taken from the start of a text is a run of
  digits that no further digit follows, if there is room.

  Key definitions include:
    * `Digits.All`
    * `Digits.Ended`

  Main statements:
    * `Digits.ofDigitChars_lt`
    * `Digits.eq_of_ofDigitChars_eq`
    * `Digits.padded_ofDigitChars`
    * `Digits.take?_eq_some_iff`
    * `Digits.take?_width_eq_some_iff`
-/

------------------------------------------------------------
-- Texts of Digits
------------------------------------------------------------

namespace Criteria

namespace Digits

/- A text holds digits only. -/
def All (text : List Char) : Prop :=
  ∀ c ∈ text, c.isDigit = true

instance (text : List Char) : Decidable (All text) :=
  decidable_of_iff (text.all Char.isDigit = true)
    List.all_eq_true

/- A text does not start with a digit. -/
def Ended (text : List Char) : Prop :=
  ∀ c, text.head? = some c → c.isDigit = false

theorem all_nil : All [] :=
  fun _ hIn => absurd hIn List.not_mem_nil

theorem all_cons_iff
    {c : Char}
    {text : List Char} :
    All (c :: text) ↔ c.isDigit = true ∧ All text :=
  List.forall_mem_cons

theorem all_append_iff
    {text other : List Char} :
    All (text ++ other) ↔ All text ∧ All other :=
  List.forall_mem_append

theorem all_toDigits (n : Nat) : All (Nat.toDigits 10 n) :=
  fun _ hIn => Nat.isDigit_of_mem_toDigits (by decide)
    (by decide) hIn

theorem all_replicate_zero (count : Nat) :
    All (List.replicate count '0') := by
  intro c hIn
  rw [List.eq_of_mem_replicate hIn]
  rfl

/- A digit is at least zero and below ten. -/
theorem toNat_of_isDigit
    {c : Char}
    (hDigit : c.isDigit = true) :
    48 ≤ c.toNat ∧ c.toNat ≤ 57 := by
  simp only [Char.isDigit, Bool.and_eq_true,
    decide_eq_true_eq] at hDigit
  exact hDigit

theorem digit_lt
    {c : Char}
    (hDigit : c.isDigit = true) :
    c.toNat - '0'.toNat < 10 := by
  have hCode := toNat_of_isDigit hDigit
  have hZero : '0'.toNat = 48 := rfl
  omega

/- Digits after the first ones, whose number is known. -/
theorem ofDigitChars_cons
    (c : Char)
    (text : List Char) :
    Nat.ofDigitChars 10 (c :: text) 0 =
      10 ^ text.length * (c.toNat - '0'.toNat) +
        Nat.ofDigitChars 10 text 0 := by
  rw [Nat.ofDigitChars_cons,
    Nat.ofDigitChars_eq_ofDigitChars_zero]
  simp

/- So many digits stay below that power of ten. -/
theorem ofDigitChars_lt
    {text : List Char}
    (hAll : All text) :
    Nat.ofDigitChars 10 text 0 < 10 ^ text.length := by
  induction text with
  | nil => simp [Nat.ofDigitChars_nil]
  | cons c text ih =>
      rw [all_cons_iff] at hAll
      have hRest := ih hAll.2
      have hFirst :
          10 ^ text.length * (c.toNat - '0'.toNat) ≤
            10 ^ text.length * 9 :=
        Nat.mul_le_mul_left _
          (Nat.le_of_lt_succ (digit_lt hAll.1))
      rw [ofDigitChars_cons, List.length_cons, pow_succ]
      omega

/- Digits of one length are known by their number. -/
theorem eq_of_ofDigitChars_eq
    {text other : List Char}
    (hAll : All text)
    (hOther : All other)
    (hLength : text.length = other.length)
    (hSame :
      Nat.ofDigitChars 10 text 0 =
        Nat.ofDigitChars 10 other 0) :
    text = other := by
  induction text generalizing other with
  | nil =>
      symm
      exact List.eq_nil_of_length_eq_zero hLength.symm
  | cons c text ih =>
      cases other with
      | nil => cases hLength
      | cons d other =>
          rw [all_cons_iff] at hAll hOther
          have hRest : text.length = other.length :=
            Nat.succ.inj hLength
          rw [ofDigitChars_cons, ofDigitChars_cons, hRest]
            at hSame
          have hText := ofDigitChars_lt hAll.2
          have hMore := ofDigitChars_lt hOther.2
          rw [hRest] at hText
          -- The first digit is the quotient by the power.
          have hFirst :
              c.toNat - '0'.toNat = d.toNat - '0'.toNat := by
            have hLeft := congrArg
              (· / 10 ^ other.length) hSame
            simp only [Nat.mul_add_div (Nat.pow_pos
              (show 0 < 10 by decide)),
              Nat.div_eq_of_lt hText,
              Nat.div_eq_of_lt hMore] at hLeft
            exact hLeft
          have hChar : c = d := by
            have hC := toNat_of_isDigit hAll.1
            have hD := toNat_of_isDigit hOther.1
            have hZero : '0'.toNat = 48 := rfl
            apply Char.toNat_inj.mp
            omega
          rw [hFirst] at hSame
          rw [hChar, ih hAll.2 hOther.2 hRest
            (Nat.add_left_cancel hSame)]

------------------------------------------------------------
-- Padded Numbers
------------------------------------------------------------

theorem all_padded (width n : Nat) : All (padded width n) :=
  all_append_iff.mpr
    ⟨all_replicate_zero _, all_toDigits n⟩

theorem ofDigitChars_padded (width n : Nat) :
    Nat.ofDigitChars 10 (padded width n) 0 = n := by
  unfold padded
  rw [Nat.ofDigitChars_append, Nat.ofDigitChars_replicate_zero,
    Nat.mul_zero]
  exact Nat.ofDigitChars_ten_toDigits

theorem padded_ne_nil (width n : Nat) :
    padded width n ≠ [] := by
  intro hNil
  exact Nat.toDigits_ne_nil
    (List.append_eq_nil_iff.mp hNil).2

/- Numbers that fit a width fill it. -/
theorem length_padded
    {width n : Nat}
    (hWidth : 0 < width)
    (hFits : n < 10 ^ width) :
    (padded width n).length = width := by
  have hDigits : (Nat.toDigits 10 n).length ≤ width :=
    (Nat.length_toDigits_le_iff (by decide) hWidth).mpr hFits
  unfold padded
  rw [List.length_append, List.length_replicate]
  omega

/- Digits are the number they write, at their width. -/
theorem padded_ofDigitChars
    {text : List Char}
    (hText : text ≠ [])
    (hAll : All text) :
    padded text.length (Nat.ofDigitChars 10 text 0) =
      text := by
  apply eq_of_ofDigitChars_eq (all_padded _ _) hAll
  · exact length_padded (List.length_pos_iff.mpr hText)
      (ofDigitChars_lt hAll)
  · exact ofDigitChars_padded _ _

/- A number is told from the digits of its width. -/
theorem eq_of_padded_append_eq
    {width n m : Nat}
    (hWidth : 0 < width)
    (hFits : n < 10 ^ width)
    (hOther : m < 10 ^ width)
    {rest more : List Char}
    (hText :
      padded width n ++ rest = padded width m ++ more) :
    n = m ∧ rest = more := by
  have hLength :
      (padded width n).length = (padded width m).length := by
    rw [length_padded hWidth hFits,
      length_padded hWidth hOther]
  rcases List.append_inj hText hLength with ⟨hSame, hRest⟩
  refine ⟨?_, hRest⟩
  rw [← ofDigitChars_padded width n, hSame,
    ofDigitChars_padded]

------------------------------------------------------------
-- Digits at the Start of a Text
------------------------------------------------------------

theorem takeWhile_append_of_ended
    {digits rest : List Char}
    (hAll : All digits)
    (hEnded : Ended rest) :
    (digits ++ rest).takeWhile Char.isDigit = digits := by
  rw [List.takeWhile_append_of_pos hAll]
  cases rest with
  | nil => simp
  | cons c rest => simp [hEnded c rfl]

theorem all_takeWhile (text : List Char) :
    All (text.takeWhile Char.isDigit) :=
  fun _ hIn => List.mem_takeWhile_imp hIn

theorem ended_drop_takeWhile (text : List Char) :
    Ended (text.drop (text.takeWhile Char.isDigit).length) := by
  induction text with
  | nil => intro c hHead; cases hHead
  | cons c text ih =>
      by_cases hDigit : c.isDigit = true
      · simpa [hDigit] using ih
      · intro d hHead
        simp [hDigit] at hHead
        simpa [← hHead] using hDigit

theorem ended_take
    {text : List Char}
    {count : Nat}
    (hEnded : 0 < count → Ended text) :
    Ended (text.take count) := by
  intro c hHead
  by_cases hCount : 0 < count
  · rw [List.head?_take, if_neg (by omega)] at hHead
    exact hEnded hCount c hHead
  · rw [Nat.eq_zero_of_not_pos hCount] at hHead
    cases hHead

/- A run of digits that is as long as it can be. -/
theorem take?_eq_some_iff
    {least most n : Nat}
    {text rest : List Char} :
    take? least most text = some (n, rest) ↔
      ∃ digits, text = digits ++ rest ∧ All digits ∧
        least ≤ digits.length ∧ digits.length ≤ most ∧
        (digits.length < most → Ended rest) ∧
        n = Nat.ofDigitChars 10 digits 0 := by
  unfold take?
  constructor
  · intro hTake
    dsimp only at hTake
    split at hTake
    · cases hTake
    · rename_i hLeast
      cases hTake
      have hLength :
          ((text.take most).takeWhile Char.isDigit).length ≤
            (text.take most).length :=
        (List.takeWhile_prefix _).length_le
      have hPrefix :
          (text.take most).takeWhile Char.isDigit <+: text :=
        (List.takeWhile_prefix _).trans
          (List.take_prefix most text)
      have hEnd := ended_drop_takeWhile (text.take most)
      have hAll := all_takeWhile (text.take most)
      generalize (text.take most).takeWhile Char.isDigit =
        digits at *
      rw [List.length_take] at hLength
      refine ⟨digits, ?_, hAll, by omega, by omega, ?_, rfl⟩
      · exact (List.prefix_iff_eq_append.mp hPrefix).symm
      · intro hRoom c hHead
        apply hEnd c
        rw [List.drop_take, List.head?_take,
          if_neg (by omega)]
        exact hHead
  · rintro ⟨digits, rfl, hAll, hLeast, hMost, hEnd, rfl⟩
    have hRun :
        ((digits ++ rest).take most).takeWhile
          Char.isDigit = digits := by
      rw [List.take_append, List.take_of_length_le hMost]
      apply takeWhile_append_of_ended hAll
      apply ended_take
      intro hRoom
      exact hEnd (by omega)
    rw [hRun]
    simp [Nat.not_lt.mpr hLeast]

/- Exactly so many digits are a number of that width. -/
theorem take?_width_eq_some_iff
    {width n : Nat}
    (hWidth : 0 < width)
    {text rest : List Char} :
    take? width width text = some (n, rest) ↔
      n < 10 ^ width ∧ text = padded width n ++ rest := by
  rw [take?_eq_some_iff]
  constructor
  · rintro ⟨digits, rfl, hAll, hLeast, hMost, _, rfl⟩
    have hLength : digits.length = width := by omega
    have hSome : digits ≠ [] := by
      rintro rfl
      simp at hLength
      omega
    refine ⟨?_, ?_⟩
    · rw [← hLength]
      exact ofDigitChars_lt hAll
    · rw [← hLength, padded_ofDigitChars hSome hAll]
  · rintro ⟨hFits, rfl⟩
    have hLength := length_padded hWidth hFits
    refine ⟨padded width n, rfl, all_padded width n,
      hLength.ge, hLength.le, ?_, ?_⟩
    · intro hRoom
      omega
    · exact (ofDigitChars_padded width n).symm

end Digits

end Criteria
