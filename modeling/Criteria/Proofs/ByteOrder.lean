import Mathlib.Algebra.Order.Ring.Nat
import Mathlib.Data.List.Lex

/-
  This file proves that texts are ordered as their bytes in
  UTF-8 are.

  A character is written in one to four bytes: a first byte,
  in which a mark gives their number, and six bits in each
  further byte. Larger marks stand for larger characters, so
  that of two characters the smaller one has the smaller
  byte where they first differ.

  Key definitions include:
    * `Text.bytes`
    * `Text.sequence`

  Main statements:
    * `Text.encode_cases`
    * `Text.encode_lt`
    * `Text.bytes_lt_iff`
-/

------------------------------------------------------------
-- Byte Sequences
------------------------------------------------------------

namespace Criteria

namespace Text

/- The bytes of a text in UTF-8. -/
def bytes (text : String) : List UInt8 :=
  text.toUTF8.data.toList

/- A code in a marked byte and some bytes of six bits. -/
def sequence
    (mark : Nat) : (further code : Nat) → List UInt8
  | 0, code => [UInt8.ofNat (code + mark)]
  | further + 1, code =>
      sequence mark further (code / 64) ++
        [UInt8.ofNat (code % 64 + 0x80)]

/- Where the first bytes differ, nothing else counts. -/
theorem first_lt
    {a b : Nat}
    (hLess : a < b)
    (hByte : b < 256)
    (rest others : List UInt8) :
    UInt8.ofNat a :: rest < UInt8.ofNat b :: others := by
  apply List.cons_lt_cons_iff.mpr
  left
  rw [UInt8.lt_iff_toNat_lt, UInt8.toNat_ofNat',
    UInt8.toNat_ofNat']
  omega

/- Sequences of one length are ordered as their codes. -/
theorem sequence_lt
    {mark further code other : Nat}
    (hLess : code < other)
    (hByte : other / 64 ^ further + mark < 256)
    (rest others : List UInt8) :
    sequence mark further code ++ rest <
      sequence mark further other ++ others := by
  induction further generalizing code other rest others with
  | zero =>
      rw [pow_zero, Nat.div_one] at hByte
      exact first_lt (by omega) hByte rest others
  | succ further ih =>
      rw [pow_succ', ← Nat.div_div_eq_div_mul] at hByte
      rw [sequence, sequence, List.append_assoc,
        List.append_assoc]
      by_cases hHigh : code / 64 < other / 64
      · exact ih hHigh hByte _ _
      · have hSame : code / 64 = other / 64 := by omega
        rw [hSame]
        apply List.append_left_lt
        apply first_lt <;> omega

/- The number of bytes and their mark go with the code. -/
theorem encode_cases (c : Char) :
    (c.toNat ≤ 0x7f ∧
      String.utf8EncodeChar c = sequence 0 0 c.toNat) ∨
    (0x7f < c.toNat ∧ c.toNat ≤ 0x7ff ∧
      String.utf8EncodeChar c = sequence 0xc0 1 c.toNat) ∨
    (0x7ff < c.toNat ∧ c.toNat ≤ 0xffff ∧
      String.utf8EncodeChar c = sequence 0xe0 2 c.toNat) ∨
    (0xffff < c.toNat ∧ c.toNat ≤ 0x10ffff ∧
      String.utf8EncodeChar c = sequence 0xf0 3 c.toNat) := by
  have hMost : c.toNat ≤ 0x10ffff := by
    rcases c.valid with hLow | hHigh
    · exact (lt_trans hLow (by decide)).le
    · exact Nat.le_of_lt_succ hHigh.2
  have hCode : c.val.toNat = c.toNat := rfl
  unfold String.utf8EncodeChar
  simp only [hCode]
  generalize c.toNat = code at hMost
  split_ifs with hOne hTwo hThree
  · exact .inl ⟨hOne, rfl⟩
  · have hFirst : code / 64 % 0x20 = code / 64 := by omega
    rw [hFirst]
    exact .inr (.inl ⟨by omega, hTwo, rfl⟩)
  · have hFirst : code / 4096 % 0x10 = code / 64 / 64 := by
      omega
    rw [hFirst]
    exact .inr (.inr (.inl ⟨by omega, hThree, rfl⟩))
  · have hFirst :
        code / 262144 % 0x08 = code / 64 / 64 / 64 := by
      omega
    have hSecond : code / 4096 = code / 64 / 64 := by omega
    rw [hFirst, hSecond]
    exact .inr (.inr (.inr ⟨by omega, hMost, rfl⟩))

/- A smaller character comes first, whatever follows. -/
theorem encode_lt
    {c d : Char}
    (hLess : c < d)
    (rest others : List UInt8) :
    String.utf8EncodeChar c ++ rest <
      String.utf8EncodeChar d ++ others := by
  have hCode : c.toNat < d.toNat := hLess
  rcases encode_cases c with ⟨hC, hFirst⟩ |
    ⟨_, hC, hFirst⟩ | ⟨_, hC, hFirst⟩ | ⟨_, hC, hFirst⟩ <;>
  rcases encode_cases d with ⟨hD, hSecond⟩ |
    ⟨_, hD, hSecond⟩ | ⟨_, hD, hSecond⟩ |
    ⟨_, hD, hSecond⟩ <;>
  rw [hFirst, hSecond]
  -- Of different lengths the first bytes differ.
  all_goals
    first
    | exact sequence_lt hCode (by omega) rest others
    | exact first_lt (by omega) (by omega) _ _

------------------------------------------------------------
-- Texts
------------------------------------------------------------

theorem bytes_eq_flatMap (text : String) :
    bytes text =
      text.toList.flatMap String.utf8EncodeChar := by
  unfold bytes
  rw [String.toUTF8_eq_toByteArray,
    ← String.utf8Encode_toList, List.utf8Encode,
    List.data_toByteArray]

theorem bytes_lt
    {first second : String}
    (hLess : first < second) :
    bytes first < bytes second := by
  rw [bytes_eq_flatMap, bytes_eq_flatMap]
  have hChars : first.toList < second.toList := hLess
  generalize first.toList = chars, second.toList = others
    at hChars ⊢
  induction hChars with
  | nil =>
      rename_i c rest
      rw [List.flatMap_nil, List.flatMap_cons]
      cases hBytes : String.utf8EncodeChar c with
      | nil =>
          exact absurd hBytes String.utf8EncodeChar_ne_nil
      | cons => exact .nil
  | rel hFirst => exact encode_lt hFirst _ _
  | cons _ ih => exact List.append_left_lt ih

/- The order of texts is the order of their bytes. -/
theorem bytes_lt_iff
    {first second : String} :
    bytes first < bytes second ↔ first < second := by
  refine ⟨fun hBytes => ?_, bytes_lt⟩
  apply String.not_le.mp
  intro hLe
  by_cases hSame : first = second
  · rw [hSame] at hBytes
    exact List.lt_irrefl _ hBytes
  · have hMore : second < first := by
      apply String.not_le.mp
      intro hOther
      exact hSame (String.le_antisymm hOther hLe)
    exact List.lt_asymm hBytes (bytes_lt hMore)

end Text

end Criteria
