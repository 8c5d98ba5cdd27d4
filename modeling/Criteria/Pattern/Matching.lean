import Criteria.Pattern

/-
  This file defines which texts a pattern of LIKE matches.

  Main statements:
    * `Pattern.matches_escapeChars_append`, an escaped text
      at the start of a pattern matches exactly itself
-/

------------------------------------------------------------
-- Matching
------------------------------------------------------------

namespace Criteria

namespace Pattern

/-
  A pattern matches a text. The escape mark takes the next
  character literally, so that a pattern that ends with the
  mark matches nothing.
-/
inductive Matches : List Char → List Char → Prop where
  | nil : Matches [] []
  | escaped
      {c : Char}
      {pattern text : List Char}
      (rest : Matches pattern text) :
      Matches (escapeMark :: c :: pattern) (c :: text)
  | anyChar
      {c : Char}
      {pattern text : List Char}
      (rest : Matches pattern text) :
      Matches (anyChar :: pattern) (c :: text)
  | anyTextEnd
      {pattern text : List Char}
      (rest : Matches pattern text) :
      Matches (anyText :: pattern) text
  | anyTextStep
      {c : Char}
      {pattern text : List Char}
      (rest : Matches (anyText :: pattern) text) :
      Matches (anyText :: pattern) (c :: text)
  | literal
      {c : Char}
      {pattern text : List Char}
      (hPlain : isSpecial c = false)
      (rest : Matches pattern text) :
      Matches (c :: pattern) (c :: text)

------------------------------------------------------------
-- Escaped Texts
------------------------------------------------------------

/- An escaped character matches itself and nothing else. -/
theorem matches_escapeChar_append
    (c : Char)
    (pattern text : List Char) :
    Matches (escapeChar c ++ pattern) text ↔
      ∃ rest, text = c :: rest ∧ Matches pattern rest := by
  unfold escapeChar
  split
  · rename_i hSpecial
    constructor
    · intro hMatch
      cases hMatch with
      | escaped rest => exact ⟨_, rfl, rest⟩
      | literal hPlain _ =>
          simp [isSpecial] at hPlain
    · rintro ⟨rest, rfl, hRest⟩
      exact .escaped hRest
  · rename_i hPlain
    constructor
    · intro hMatch
      cases hMatch with
      | escaped rest => simp [isSpecial] at hPlain
      | anyChar rest => simp [isSpecial] at hPlain
      | anyTextEnd rest => simp [isSpecial] at hPlain
      | anyTextStep rest => simp [isSpecial] at hPlain
      | literal _ rest => exact ⟨_, rfl, rest⟩
    · rintro ⟨rest, rfl, hRest⟩
      exact .literal (by simpa using hPlain) hRest

/- An escaped text matches itself and nothing else. -/
theorem matches_escapeChars_append
    (s pattern text : List Char) :
    Matches (escapeChars s ++ pattern) text ↔
      ∃ rest, text = s ++ rest ∧ Matches pattern rest := by
  induction s generalizing text with
  | nil => simp [escapeChars]
  | cons c s ih =>
      have hSplit :
          escapeChars (c :: s) ++ pattern =
            escapeChar c ++ (escapeChars s ++ pattern) := by
        simp [escapeChars]
      rw [hSplit, matches_escapeChar_append]
      constructor
      · rintro ⟨rest, rfl, hRest⟩
        rcases (ih rest).mp hRest with ⟨tail, rfl, hTail⟩
        exact ⟨tail, rfl, hTail⟩
      · rintro ⟨rest, rfl, hRest⟩
        exact ⟨s ++ rest, rfl, (ih _).mpr ⟨rest, rfl, hRest⟩⟩

end Pattern

end Criteria
