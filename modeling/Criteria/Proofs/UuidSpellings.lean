import Criteria.Uuid
import Mathlib.Algebra.Order.Ring.Nat
import Mathlib.Data.List.Basic

/-
  This file proves which texts spell an identifier.

  There are four: its digits alone, its digits in groups
  joined by hyphens, and those in braces or after the name
  space. A text is read as an identifier exactly if it is
  one of them in lower case.

  Key definitions include:
    * `Uuid.spellings`

  Main statements:
    * `Hex.value?_eq_some_iff`
    * `Uuid.unhyphenated?_eq_some_iff`
    * `Uuid.ofChars?_eq_some_iff`
-/

------------------------------------------------------------
-- Letter Case
------------------------------------------------------------

namespace Criteria

namespace Hex

/- The letters from `A` to `Z`. -/
def capitals : List Char :=
  (List.range 26).map fun i => Char.ofNat (65 + i)

/- What holds of the capitals one by one holds of each. -/
theorem forall_capitals
    {p : Char → Bool}
    (hAll : capitals.all p = true)
    {c : Char}
    (hIn : c ∈ capitals) : p c = true :=
  List.all_eq_true.mp hAll c hIn

/- Only a capital letter changes in lower case. -/
theorem toLower_cases (c : Char) :
    c.toLower = c ∨ c ∈ capitals := by
  by_cases hCapital : c.val ≥ 'A'.val ∧ c.val ≤ 'Z'.val
  · right
    have hLeast : 65 ≤ c.toNat := hCapital.1
    have hMost : c.toNat ≤ 90 := hCapital.2
    apply List.mem_map.mpr
    refine ⟨c.toNat - 65, List.mem_range.mpr (by omega), ?_⟩
    rw [Nat.add_sub_cancel' hLeast]
    exact Char.ofNat_toNat c
  · left
    exact dif_neg hCapital

/- A lower case that is no letter was there before. -/
theorem toLower_eq_iff
    {c d : Char}
    (hOther : d.isAlpha = false) :
    c.toLower = d ↔ c = d := by
  constructor
  · intro hLower
    rcases toLower_cases c with hSame | hCapital
    · rw [← hSame, hLower]
    · have hLetter : c.toLower.isAlpha = true :=
        forall_capitals (p := fun c => c.toLower.isAlpha)
          (by decide) hCapital
      rw [hLower, hOther] at hLetter
      cases hLetter
  · intro hSame
    subst hSame
    rcases toLower_cases c with hSame | hCapital
    · exact hSame
    · have hLetter : c.isAlpha = true :=
        forall_capitals (by decide) hCapital
      rw [hOther] at hLetter
      cases hLetter

/- The letter case of a digit makes no difference. -/
theorem value?_toLower (c : Char) :
    value? c.toLower = value? c := by
  rcases toLower_cases c with hSame | hCapital
  · rw [hSame]
  · have hSame :=
      forall_capitals
        (p := fun c => value? c.toLower = value? c)
        (by decide) hCapital
    exact of_decide_eq_true hSame

theorem toLower_char (digit : Fin 16) :
    (char digit).toLower = char digit := by
  revert digit
  decide

/- A digit is read from its character in either case. -/
theorem value?_eq_some_iff
    {c : Char}
    {digit : Fin 16} :
    value? c = some digit ↔ c.toLower = char digit := by
  constructor
  · intro hValue
    unfold value? at hValue
    split at hValue <;> cases hValue <;> rfl
  · intro hLower
    rw [← value?_toLower, hLower, value?_char]

theorem mapM_value?_eq_some_iff
    {text : List Char}
    {digits : List (Fin 16)} :
    text.mapM value? = some digits ↔
      text.map Char.toLower = digits.map char := by
  induction text generalizing digits with
  | nil =>
      cases digits with
      | nil => simp
      | cons digit digits => simp
  | cons c text ih =>
      rw [List.mapM_cons]
      simp only [Option.bind_eq_bind, Option.pure_def,
        Option.bind_eq_some_iff, value?_eq_some_iff,
        Option.some.injEq, ih]
      cases digits with
      | nil => simp
      | cons digit digits =>
          simp only [List.map_cons, List.cons.injEq]
          constructor
          · intro hRead
            rcases hRead with
              ⟨first, hFirst, rest, hRest, hSame, hMore⟩
            subst hSame hMore
            exact ⟨hFirst, hRest⟩
          · intro hLower
            exact ⟨digit, hLower.1, digits, hLower.2, rfl,
              rfl⟩

end Hex

namespace Uuid

------------------------------------------------------------
-- Spellings
------------------------------------------------------------

/- The texts of an identifier in lower case. -/
def spellings (u : Uuid) : List (List Char) :=
  [ u.digits.map Hex.char,
    u.chars,
    '\x7b' :: (u.chars ++ ['\x7d']),
    urnMark ++ u.chars ]

------------------------------------------------------------
-- Digits and Hyphens
------------------------------------------------------------

theorem ofDigits?_eq_some_iff
    {text : List Char}
    {u : Uuid} :
    ofDigits? text = some u ↔
      text.map Char.toLower = u.digits.map Hex.char := by
  unfold ofDigits?
  rw [← Hex.mapM_value?_eq_some_iff]
  constructor
  · intro hRead
    split at hRead
    · cases hRead
    · rename_i digits hDigits
      split at hRead
      · cases hRead
        exact hDigits
      · cases hRead
  · intro hDigits
    rw [hDigits]
    exact dif_pos u.length_eq

theorem hyphenated_cons
    (n m : Nat)
    (groups : List Nat)
    (text : List Char) :
    hyphenated (n :: m :: groups) text =
      text.take n ++
        '-' :: hyphenated (m :: groups) (text.drop n) :=
  rfl

/- Hyphens are all that is taken out. -/
theorem unhyphenated?_eq_some_iff
    {n : Nat}
    {groups : List Nat}
    {text plain : List Char} :
    unhyphenated? (n :: groups) text = some plain ↔
      plain.length = (n :: groups).sum ∧
        text = hyphenated (n :: groups) plain := by
  induction groups generalizing n text plain with
  | nil =>
      simp only [unhyphenated?, hyphenated, List.sum_cons,
        List.sum_nil, Nat.add_zero]
      split
      · rename_i hLength
        constructor
        · intro hSame
          cases hSame
          exact ⟨hLength, rfl⟩
        · intro hSame
          rw [hSame.2]
      · rename_i hLength
        constructor
        · intro hNone
          cases hNone
        · intro hSame
          rw [hSame.2] at hLength
          exact absurd hSame.1 hLength
  | cons m groups ih =>
      rw [hyphenated_cons, List.sum_cons]
      constructor
      · intro hRead
        simp only [unhyphenated?] at hRead
        split at hRead
        · rename_i tail hDrop
          rcases Option.map_eq_some_iff.mp hRead with
            ⟨rest, hRest, hPlain⟩
          rcases ih.mp hRest with ⟨hLength, hTail⟩
          have hTaken : (text.take n).length = n := by
            have hLong : 0 < (text.drop n).length := by
              rw [hDrop]
              exact Nat.succ_pos _
            rw [List.length_drop] at hLong
            rw [List.length_take]
            omega
          subst hPlain
          constructor
          · rw [List.length_append, hTaken, hLength]
          · rw [List.take_left' hTaken, List.drop_left' hTaken,
              ← hTail, ← hDrop, List.take_append_drop]
        · cases hRead
      · intro hPlain
        rcases hPlain with ⟨hLength, hText⟩
        have hTaken : (plain.take n).length = n := by
          rw [List.length_take]
          omega
        have hRest :
            unhyphenated? (m :: groups)
                (hyphenated (m :: groups) (plain.drop n)) =
              some (plain.drop n) := by
          apply ih.mpr
          refine ⟨?_, rfl⟩
          rw [List.length_drop]
          omega
        subst hText
        simp only [unhyphenated?, List.drop_left' hTaken,
          List.take_left' hTaken, hRest, Option.map_some,
          List.take_append_drop]

theorem map_hyphenated
    {f : Char → Char}
    (hHyphen : f '-' = '-')
    (n : Nat)
    (groups : List Nat)
    (text : List Char) :
    (hyphenated (n :: groups) text).map f =
      hyphenated (n :: groups) (text.map f) := by
  induction groups generalizing n text with
  | nil => rfl
  | cons m groups ih =>
      rw [hyphenated_cons, hyphenated_cons, List.map_append,
        List.map_cons, hHyphen, ih, List.map_take,
        List.map_drop]

theorem length_hyphenated
    {n : Nat}
    {groups : List Nat}
    {text : List Char}
    (hLength : text.length = (n :: groups).sum) :
    (hyphenated (n :: groups) text).length =
      (n :: groups).sum + groups.length := by
  induction groups generalizing n text with
  | nil => simpa [hyphenated] using hLength
  | cons m groups ih =>
      rw [List.sum_cons] at hLength
      have hRest :
          (text.drop n).length = (m :: groups).sum := by
        rw [List.length_drop]
        omega
      have hTaken : (text.take n).length = n := by
        rw [List.length_take]
        omega
      rw [hyphenated_cons, List.length_append,
        List.length_cons, hTaken, ih hRest]
      simp only [List.sum_cons, List.length_cons]
      omega

/- Hyphens stand where they stand in another letter case. -/
theorem exists_hyphenated_of_map_eq
    {n : Nat}
    {groups : List Nat}
    {text plain : List Char}
    (hLength : plain.length = (n :: groups).sum)
    (hText :
      text.map Char.toLower =
        hyphenated (n :: groups) plain) :
    ∃ upper, text = hyphenated (n :: groups) upper ∧
      upper.map Char.toLower = plain := by
  induction groups generalizing n text plain with
  | nil => exact ⟨text, rfl, hText⟩
  | cons m groups ih =>
      rw [List.sum_cons] at hLength
      rw [hyphenated_cons, List.map_eq_append_iff] at hText
      rcases hText with ⟨first, rest, hText, hFirst, hRest⟩
      rcases List.map_eq_cons_iff.mp hRest with
        ⟨hyphen, tail, hTail, hHyphen, hLower⟩
      rw [Hex.toLower_eq_iff (by decide)] at hHyphen
      subst hHyphen hTail hText
      have hDropped :
          (plain.drop n).length = (m :: groups).sum := by
        rw [List.length_drop]
        omega
      rcases ih hDropped hLower with ⟨upper, hUpper, hPlain⟩
      have hTaken : first.length = n := by
        have hCount := congrArg List.length hFirst
        rw [List.length_map, List.length_take] at hCount
        omega
      refine ⟨first ++ upper, ?_, ?_⟩
      · rw [hyphenated_cons, List.take_left' hTaken,
          List.drop_left' hTaken, hUpper]
      · rw [List.map_append, hFirst, hPlain,
          List.take_append_drop]

theorem ofHyphenated?_eq_some_iff
    {text : List Char}
    {u : Uuid} :
    ofHyphenated? text = some u ↔
      text.map Char.toLower = u.chars := by
  unfold ofHyphenated? chars groups
  rw [Option.bind_eq_some_iff]
  simp only [unhyphenated?_eq_some_iff,
    ofDigits?_eq_some_iff]
  constructor
  · intro hRead
    rcases hRead with ⟨plain, ⟨_, hText⟩, hLower⟩
    rw [hText, map_hyphenated (by decide), hLower]
  · intro hText
    have hLength :
        (u.digits.map Hex.char).length =
          [8, 4, 4, 4, 12].sum := by
      rw [List.length_map, u.length_eq]
      rfl
    rcases exists_hyphenated_of_map_eq hLength hText with
      ⟨upper, hUpper, hLower⟩
    refine ⟨upper, ⟨?_, hUpper⟩, hLower⟩
    rw [← hLength, ← hLower, List.length_map]

------------------------------------------------------------
-- Braces and the Name Space
------------------------------------------------------------

theorem ofBraced?_eq_some_iff
    {text : List Char}
    {u : Uuid} :
    ofBraced? text = some u ↔
      text.map Char.toLower =
        '\x7b' :: (u.chars ++ ['\x7d']) := by
  constructor
  · intro hRead
    unfold ofBraced? at hRead
    split at hRead
    · rename_i rest
      split at hRead
      · rename_i hLast
        rw [ofHyphenated?_eq_some_iff] at hRead
        have hRest :=
          List.dropLast_append_getLast? _ hLast
        rw [List.map_cons, ← hRest, List.map_append, hRead]
        rfl
      · cases hRead
    · cases hRead
  · intro hText
    rcases List.map_eq_cons_iff.mp hText with
      ⟨brace, rest, hRest, hBrace, hLower⟩
    rw [Hex.toLower_eq_iff (by decide)] at hBrace
    rcases List.map_eq_append_iff.mp hLower with
      ⟨body, last, hBody, hChars, hLast⟩
    rcases List.map_eq_cons_iff.mp hLast with
      ⟨closing, none, hClosing, hSame, hNone⟩
    rw [Hex.toLower_eq_iff (by decide)] at hSame
    rw [List.map_eq_nil_iff] at hNone
    subst hNone hSame hClosing hBody hBrace hRest
    rw [ofBraced?]
    simp only [List.getLast?_concat, if_true,
      List.dropLast_concat]
    exact ofHyphenated?_eq_some_iff.mpr hChars

theorem ofUrn?_eq_some_iff
    {text : List Char}
    {u : Uuid} :
    ofUrn? text = some u ↔
      text.map Char.toLower = urnMark ++ u.chars := by
  unfold ofUrn?
  dsimp only
  constructor
  · intro hRead
    split at hRead
    · rename_i hMark
      rw [ofHyphenated?_eq_some_iff] at hRead
      rw [← hMark, ← hRead, ← List.map_append,
        List.take_append_drop]
    · cases hRead
  · intro hText
    have hTaken :
        (text.take urnMark.length).map Char.toLower =
          urnMark := by
      rw [List.map_take, hText, List.take_left]
    rw [if_pos hTaken, ofHyphenated?_eq_some_iff,
      List.map_drop, hText, List.drop_left]

------------------------------------------------------------
-- Identifiers
------------------------------------------------------------

theorem length_chars (u : Uuid) : u.chars.length = 36 := by
  have hLength :
      (u.digits.map Hex.char).length =
        [8, 4, 4, 4, 12].sum := by
    rw [List.length_map, u.length_eq]
    rfl
  exact length_hyphenated hLength

/- Other spellings have other lengths. -/
theorem ofDigits?_eq_none
    {text : List Char}
    (hLength : text.length ≠ 32) : ofDigits? text = none := by
  rw [Option.eq_none_iff_forall_not_mem]
  intro u hRead
  have hText := ofDigits?_eq_some_iff.mp hRead
  have hCount := congrArg List.length hText
  rw [List.length_map, List.length_map, u.length_eq] at hCount
  exact hLength hCount

theorem ofHyphenated?_eq_none
    {text : List Char}
    (hLength : text.length ≠ 36) :
    ofHyphenated? text = none := by
  rw [Option.eq_none_iff_forall_not_mem]
  intro u hRead
  have hText := ofHyphenated?_eq_some_iff.mp hRead
  have hCount := congrArg List.length hText
  rw [List.length_map, length_chars] at hCount
  exact hLength hCount

theorem ofBraced?_eq_none
    {text : List Char}
    (hLength : text.length ≠ 38) : ofBraced? text = none := by
  rw [Option.eq_none_iff_forall_not_mem]
  intro u hRead
  have hText := ofBraced?_eq_some_iff.mp hRead
  have hCount := congrArg List.length hText
  rw [List.length_map, List.length_cons, List.length_append,
    length_chars] at hCount
  exact hLength hCount

/- A text is read exactly if it is one of the spellings. -/
theorem ofChars?_eq_some_iff
    {text : List Char}
    {u : Uuid} :
    ofChars? text = some u ↔
      text.map Char.toLower ∈ u.spellings := by
  unfold ofChars? spellings
  simp only [List.mem_cons, List.not_mem_nil, or_false]
  rw [← ofDigits?_eq_some_iff, ← ofHyphenated?_eq_some_iff,
    ← ofBraced?_eq_some_iff, ← ofUrn?_eq_some_iff]
  constructor
  · intro hRead
    rcases Option.or_eq_some_iff.mp hRead with
      hFirst | ⟨_, hSecond⟩
    · rcases Option.or_eq_some_iff.mp hFirst with
        hDigits | ⟨_, hHyphens⟩
      · exact .inl hDigits
      · exact .inr (.inl hHyphens)
    · rcases Option.or_eq_some_iff.mp hSecond with
        hBraces | ⟨_, hUrn⟩
      · exact .inr (.inr (.inl hBraces))
      · exact .inr (.inr (.inr hUrn))
  · intro hSpelled
    rcases hSpelled with hDigits | hHyphens | hBraces | hUrn
    · rw [hDigits]
      rfl
    · have hLength : text.length = 36 := by
        rw [← length_chars u,
          ← ofHyphenated?_eq_some_iff.mp hHyphens,
          List.length_map]
      rw [ofDigits?_eq_none (by omega), hHyphens]
      rfl
    · have hLength : text.length = 38 := by
        rw [← List.length_map Char.toLower,
          ofBraced?_eq_some_iff.mp hBraces, List.length_cons,
          List.length_append, length_chars]
        rfl
      rw [ofDigits?_eq_none (by omega),
        ofHyphenated?_eq_none (by omega), hBraces]
      rfl
    · have hLength : text.length = 45 := by
        rw [← List.length_map Char.toLower,
          ofUrn?_eq_some_iff.mp hUrn, List.length_append,
          length_chars]
        rfl
      rw [ofDigits?_eq_none (by omega),
        ofHyphenated?_eq_none (by omega),
        ofBraced?_eq_none (by omega), hUrn]
      rfl

/- An identifier is written in lower case. -/
theorem map_toLower_chars (u : Uuid) :
    u.chars.map Char.toLower = u.chars := by
  unfold chars groups
  rw [map_hyphenated (by decide), List.map_map]
  congr 1
  apply List.map_congr_left
  intro digit _
  exact Hex.toLower_char digit

/- What is written for an identifier reads back. -/
theorem ofChars?_chars (u : Uuid) :
    ofChars? u.chars = some u := by
  rw [ofChars?_eq_some_iff, map_toLower_chars]
  exact List.mem_cons_of_mem _ List.mem_cons_self

end Uuid

end Criteria
