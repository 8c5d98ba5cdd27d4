import Criteria.Pattern.Matching

/-
  This file proves that the patterns built of a text match
  it literally.

  Wildcards and the escape mark lose their meaning in an
  escaped text, and the wildcards around it keep theirs. So a
  pattern matches the texts that have the given one in them,
  at their start or at their end, whatever characters it is
  made of.

  Key definitions include:
    * `Pattern.WellEscaped`

  Main statements:
    * `Pattern.matches_anyText_cons`
    * `Pattern.wellEscaped_escapeChars_append`
    * `Pattern.matches_literally`
-/

------------------------------------------------------------
-- Wildcards
------------------------------------------------------------

namespace Criteria

namespace Pattern

/- What is after any text matches some end of a text. -/
theorem matches_anyText_cons
    (pattern text : List Char) :
    Matches (anyText :: pattern) text ↔
      ∃ before after,
        text = before ++ after ∧ Matches pattern after := by
  constructor
  · intro hMatch
    -- A wildcard takes one character after another.
    induction text with
    | nil =>
        cases hMatch with
        | anyTextEnd rest => exact ⟨[], [], rfl, rest⟩
    | cons c text ih =>
        cases hMatch with
        | anyTextEnd rest => exact ⟨[], c :: text, rfl, rest⟩
        | anyTextStep rest =>
            rcases ih rest with ⟨before, after, rfl, hAfter⟩
            exact ⟨c :: before, after, rfl, hAfter⟩
        | literal hPlain _ => simp [isSpecial] at hPlain
  · rintro ⟨before, after, rfl, hAfter⟩
    induction before with
    | nil => exact .anyTextEnd hAfter
    | cons c before ih => exact .anyTextStep ih

/- At the end of a pattern any text matches all that is left. -/
theorem matches_anyText (text : List Char) :
    Matches [anyText] text := by
  rw [matches_anyText_cons]
  exact ⟨text, [], (List.append_nil text).symm, .nil⟩

theorem matches_nil_iff (text : List Char) :
    Matches [] text ↔ text = [] := by
  constructor
  · intro hMatch
    cases hMatch
    rfl
  · rintro rfl
    exact .nil

------------------------------------------------------------
-- Built Patterns
------------------------------------------------------------

/- An escaped text matches itself only. -/
theorem matches_escapeChars_iff (s text : List Char) :
    Matches (escapeChars s) text ↔ text = s := by
  rw [← List.append_nil (escapeChars s),
    matches_escapeChars_append]
  simp [matches_nil_iff]

/- With any text after it, it matches what it begins. -/
theorem matches_starting_iff (s text : List Char) :
    Matches (escapeChars s ++ [anyText]) text ↔
      s <+: text := by
  rw [matches_escapeChars_append]
  constructor
  · rintro ⟨rest, rfl, _⟩
    exact List.prefix_append s rest
  · rintro ⟨rest, rfl⟩
    exact ⟨rest, rfl, matches_anyText rest⟩

/- With any text before it, it matches what it ends. -/
theorem matches_ending_iff (s text : List Char) :
    Matches (anyText :: escapeChars s) text ↔
      s <:+ text := by
  rw [matches_anyText_cons]
  constructor
  · rintro ⟨before, after, rfl, hAfter⟩
    rw [(matches_escapeChars_iff s after).mp hAfter]
    exact List.suffix_append before s
  · rintro ⟨before, rfl⟩
    exact ⟨before, s, rfl,
      (matches_escapeChars_iff s s).mpr rfl⟩

/- With any text on both sides, it matches what it is in. -/
theorem matches_containing_iff (s text : List Char) :
    Matches (anyText :: escapeChars s ++ [anyText]) text ↔
      s <:+: text := by
  rw [List.cons_append, matches_anyText_cons]
  constructor
  · rintro ⟨before, after, rfl, hAfter⟩
    rcases (matches_starting_iff s after).mp hAfter with
      ⟨rest, rfl⟩
    exact ⟨before, rest, List.append_assoc before s rest⟩
  · rintro ⟨before, rest, rfl⟩
    refine ⟨before, s ++ rest,
      List.append_assoc before s rest, ?_⟩
    rw [matches_starting_iff]
    exact List.prefix_append s rest

------------------------------------------------------------
-- Escape Marks
------------------------------------------------------------

/-
  Read from the left, every escape mark stands before a
  special character, and none is the last character.
-/
inductive WellEscaped : List Char → Prop where
  | nil : WellEscaped []
  | escaped
      {c : Char}
      {pattern : List Char}
      (hSpecial : isSpecial c = true)
      (rest : WellEscaped pattern) :
      WellEscaped (escapeMark :: c :: pattern)
  | plain
      {c : Char}
      {pattern : List Char}
      (hPlain : c ≠ escapeMark)
      (rest : WellEscaped pattern) :
      WellEscaped (c :: pattern)

theorem wellEscaped_escapeChar_append
    (c : Char)
    {pattern : List Char}
    (hPattern : WellEscaped pattern) :
    WellEscaped (escapeChar c ++ pattern) := by
  unfold escapeChar
  split
  · rename_i hSpecial
    exact .escaped hSpecial hPattern
  · rename_i hPlain
    refine .plain ?_ hPattern
    rintro rfl
    simp [isSpecial] at hPlain

theorem wellEscaped_escapeChars_append
    (s : List Char)
    {pattern : List Char}
    (hPattern : WellEscaped pattern) :
    WellEscaped (escapeChars s ++ pattern) := by
  induction s with
  | nil => exact hPattern
  | cons c s ih =>
      rw [escapeChars, List.flatMap_cons, List.append_assoc]
      exact wellEscaped_escapeChar_append c ih

theorem wellEscaped_escapeChars (s : List Char) :
    WellEscaped (escapeChars s) := by
  rw [← List.append_nil (escapeChars s)]
  exact wellEscaped_escapeChars_append s .nil

/- A wildcard for any text is no escape mark. -/
theorem WellEscaped.anyText_cons
    {pattern : List Char}
    (hPattern : WellEscaped pattern) :
    WellEscaped (anyText :: pattern) :=
  .plain (by decide) hPattern

------------------------------------------------------------
-- Literal Matching
------------------------------------------------------------

/-
  The patterns of a text match the texts that are it, have it
  in them, begin with it and end with it. Nothing in them is
  escaped but special characters.
-/
theorem matches_literally (s text : String) :
    (Matches (escape s).toList text.toList ↔ text = s) ∧
    (Matches (containing s).toList text.toList ↔
      s.toList <:+: text.toList) ∧
    (Matches (starting s).toList text.toList ↔
      s.toList <+: text.toList) ∧
    (Matches (ending s).toList text.toList ↔
      s.toList <:+ text.toList) ∧
    WellEscaped (escape s).toList ∧
    WellEscaped (containing s).toList ∧
    WellEscaped (starting s).toList ∧
    WellEscaped (ending s).toList := by
  simp only [escape, containing, starting, ending,
    String.toList_ofList]
  have hStarting :
      WellEscaped (escapeChars s.toList ++ [anyText]) :=
    wellEscaped_escapeChars_append s.toList
      WellEscaped.nil.anyText_cons
  refine ⟨?_, matches_containing_iff _ _,
    matches_starting_iff _ _, matches_ending_iff _ _,
    wellEscaped_escapeChars _, hStarting.anyText_cons,
    hStarting, (wellEscaped_escapeChars _).anyText_cons⟩
  rw [matches_escapeChars_iff, String.toList_inj]

end Pattern

end Criteria
