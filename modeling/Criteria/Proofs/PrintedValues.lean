import Criteria.Proofs.DateSpellings
import Criteria.Proofs.DecimalNumerals
import Criteria.Proofs.TextOperands
import Criteria.Proofs.UuidSpellings

/-
  This file proves that printed values read back.

  The text that is written for an identifier, a date or a
  decimal is read as the same value again, save that zero has
  no sign. So a value that is read from an operand is read
  from its own text as well, and all spellings of an
  identifier or of a date are read as one value.

  Key definitions include:
    * `Value.printed?`
    * `Value.withUnsignedZero`

  Main statements:
    * `Decimal.ofChars?_chars`
    * `Coercion.printed_value`
-/

------------------------------------------------------------
-- Written Decimals
------------------------------------------------------------

namespace Criteria

namespace Decimal

/- The digits of a coefficient, and one before the point. -/
theorem length_padded_coefficient (d : Decimal) :
    d.scale + 1 ≤
      (Digits.padded (d.scale + 1) d.coefficient).length := by
  unfold Digits.padded
  rw [List.length_append, List.length_replicate]
  omega

/- What is written without a sign has all fraction digits. -/
theorem exists_unsigned_unsignedChars (d : Decimal) :
    ∃ whole fraction,
      Unsigned false false d.unsignedChars whole fraction ∧
        Nat.ofDigitChars 10 (whole ++ fraction) 0 =
          d.coefficient ∧
        fraction.length = d.scale := by
  have hAll := Digits.all_padded (d.scale + 1) d.coefficient
  have hLength := d.length_padded_coefficient
  have hN :=
    Digits.ofDigitChars_padded (d.scale + 1) d.coefficient
  have hChars :
      d.unsignedChars =
        if d.scale = 0 then
          Digits.padded (d.scale + 1) d.coefficient
        else
          (Digits.padded (d.scale + 1) d.coefficient).take
              ((Digits.padded (d.scale + 1)
                d.coefficient).length - d.scale) ++
            '.' :: (Digits.padded (d.scale + 1)
              d.coefficient).drop
                ((Digits.padded (d.scale + 1)
                  d.coefficient).length - d.scale) :=
    rfl
  rw [hChars]
  generalize Digits.padded (d.scale + 1) d.coefficient =
    digits at *
  split
  · rename_i hScale
    cases digits with
    | nil => simp at hLength
    | cons c digits =>
        refine ⟨c :: digits, [], Unsigned.ofDigits hAll, ?_,
          hScale.symm⟩
        rw [List.append_nil]
        exact hN
  · have hSplit :=
      List.take_append_drop (digits.length - d.scale) digits
    have hDropped :
        (digits.drop (digits.length - d.scale)).length =
          d.scale := by
      rw [List.length_drop]
      omega
    have hTaken :
        0 < (digits.take (digits.length - d.scale)).length := by
      rw [List.length_take]
      omega
    rw [← hSplit, Digits.all_append_iff] at hAll
    rw [← hSplit] at hN
    generalize digits.take (digits.length - d.scale) = whole
      at *
    generalize digits.drop (digits.length - d.scale) = fraction
      at *
    cases whole with
    | nil => simp at hTaken
    | cons c whole =>
        exact ⟨c :: whole, fraction,
          Unsigned.ofPoint hAll.1 hAll.2, hN, hDropped⟩

theorem exists_writes_chars (d : Decimal) :
    ∃ n : Numeral, n.Writes d.chars ∧
      n.negative = d.negative ∧ n.digits = d.coefficient ∧
      n.fraction.length = d.scale := by
  rcases d.exists_unsigned_unsignedChars with
    ⟨whole, fraction, hText, hDigits, hLength⟩
  unfold chars
  cases hSign : d.negative with
  | true =>
      exact ⟨⟨true, whole, fraction⟩, .minus hText, rfl,
        hDigits, hLength⟩
  | false =>
      exact ⟨⟨false, whole, fraction⟩, .bare hText, rfl,
        hDigits, hLength⟩

/- A decimal where a negative zero has lost its sign. -/
def withUnsignedZero (d : Decimal) : Decimal :=
  { d with negative := d.negative && d.coefficient ≠ 0 }

theorem value_withUnsignedZero (d : Decimal) :
    d.withUnsignedZero.value = d.value :=
  (value_eq_signed rfl).trans rfl

/- Only zero loses its sign. -/
theorem withUnsignedZero_of_ne_zero
    {d : Decimal}
    (hSome : d.value ≠ 0) : d.withUnsignedZero = d := by
  have hCoefficient : d.coefficient ≠ 0 := by
    intro hZero
    apply hSome
    simp [value, hZero]
  unfold withUnsignedZero
  simp [hCoefficient]

/- What is written for a decimal reads back. -/
theorem ofChars?_chars (d : Decimal) :
    ofChars? d.chars = some d.withUnsignedZero := by
  rcases d.exists_writes_chars with
    ⟨n, hWrites, hNegative, hDigits, hLength⟩
  rcases hWrites.ofPlain?_of_fits
    (by rw [hDigits]; exact d.coefficient_lt)
    (by rw [hLength]; exact d.scale_le) with
    ⟨result, hPlain, hSign, hSame, hScale⟩
  have hResult : result = d.withUnsignedZero := by
    rw [hNegative, hDigits] at hSign
    rw [hDigits] at hSame
    rw [hLength] at hScale
    rcases result with ⟨negative, coefficient, scale, _, _⟩
    dsimp only at hSign hSame hScale
    subst hSign hSame hScale
    rfl
  rw [ofChars?, hPlain, Option.some_or, hResult]

end Decimal

------------------------------------------------------------
-- Values
------------------------------------------------------------

namespace Value

/- The text that is written for a value of three kinds. -/
def printed? : Value → Option (List Char)
  | .uuid u => some u.chars
  | .date d => some d.chars
  | .decimal d => some d.chars
  | _ => none

/- A value, where a negative zero has lost its sign. -/
def withUnsignedZero : Value → Value
  | .decimal d => .decimal d.withUnsignedZero
  | value => value

end Value

namespace Coercion

/- What is read of one text is written in another. -/
theorem exists_printed_of_read?
    {kind : Kind}
    {text : List Char}
    {value : Value}
    (hKind : kind = .uuid ∨ kind = .date ∨ kind = .decimal)
    (hRead : kind.read? text = some value) :
    ∃ printed, value.printed? = some printed ∧
      kind.read? printed = some value.withUnsignedZero := by
  rcases hKind with hKind | hKind | hKind
  · subst hKind
    rcases Option.map_eq_some_iff.mp hRead with ⟨u, _, hValue⟩
    subst hValue
    refine ⟨u.chars, rfl, ?_⟩
    rw [Kind.read?, Uuid.ofChars?_chars]
    rfl
  · subst hKind
    rcases Option.map_eq_some_iff.mp hRead with ⟨d, _, hValue⟩
    subst hValue
    refine ⟨d.chars, rfl, ?_⟩
    rw [Kind.read?, Date.ofChars?_chars]
    rfl
  · subst hKind
    rcases Option.map_eq_some_iff.mp hRead with ⟨d, _, hValue⟩
    subst hValue
    refine ⟨d.chars, rfl, ?_⟩
    rw [Kind.read?, Decimal.ofChars?_chars]
    rfl

theorem isRead_of_printed
    {kind : Kind}
    (hKind : kind = .uuid ∨ kind = .date ∨ kind = .decimal) :
    kind.IsRead := by
  rcases hKind with hKind | hKind | hKind
  · exact hKind ▸ .uuid
  · exact hKind ▸ .date
  · exact hKind ▸ .decimal

theorem scalar_uuid_eq_ok_iff
    {op text : String}
    {u : Uuid} :
    scalar op .uuid (.string text) = .ok (.uuid u) ↔
      text.toList.map Char.toLower ∈ u.spellings := by
  rw [scalar_eq_ok_iff_read .uuid,
    ← Uuid.ofChars?_eq_some_iff]
  simp [Json.readText?, Kind.read?]

theorem scalar_date_eq_ok_iff
    {op text : String}
    {d : Date} :
    scalar op .date (.string text) = .ok (.date d) ↔
      d.Spells text.toList := by
  rw [scalar_eq_ok_iff_read .date,
    ← Date.ofChars?_eq_some_iff]
  simp [Json.readText?, Kind.read?]

/-
  A value that is read from an operand is read again from
  the text that is written for it, as the same number at the
  same scale if it is a decimal. The texts that are read as
  an identifier or as a date are its spellings, so that any
  two of them are read alike.
-/
theorem printed_value (op : String) :
    (∀ (kind : Kind) (operand : Json) (value : Value),
      kind = .uuid ∨ kind = .date ∨ kind = .decimal →
        scalar op kind operand = .ok value →
        ∃ text, value.printed? = some text ∧
          scalar op kind (.string (String.ofList text)) =
            .ok value.withUnsignedZero) ∧
    (∀ d : Decimal,
      d.withUnsignedZero.value = d.value ∧
        d.withUnsignedZero.scale = d.scale ∧
        (d.value ≠ 0 → d.withUnsignedZero = d)) ∧
    (∀ (u : Uuid) (text : String),
      scalar op .uuid (.string text) = .ok (.uuid u) ↔
        text.toList.map Char.toLower ∈ u.spellings) ∧
    (∀ (d : Date) (text : String),
      scalar op .date (.string text) = .ok (.date d) ↔
        d.Spells text.toList) := by
  refine ⟨?_, ?_, ?_, ?_⟩
  · intro kind operand value hKind hScalar
    have hKindRead := isRead_of_printed hKind
    rcases (scalar_eq_ok_iff_read hKindRead).mp hScalar with
      ⟨text, _, hRead⟩
    rcases exists_printed_of_read? hKind hRead with
      ⟨printed, hPrinted, hAgain⟩
    refine ⟨printed, hPrinted,
      (scalar_eq_ok_iff_read hKindRead).mpr
        ⟨printed, ?_, hAgain⟩⟩
    rw [Json.readText?, String.toList_ofList]
  · intro d
    exact ⟨d.value_withUnsignedZero, rfl,
      Decimal.withUnsignedZero_of_ne_zero⟩
  · intro u text
    exact scalar_uuid_eq_ok_iff
  · intro d text
    exact scalar_date_eq_ok_iff

/- Every spelling but the written one, and a negative zero. -/
theorem printed_value_respelled :
    (∃ u : Uuid,
      scalar "equals" .uuid
          (.string
            "URN:UUID:67E55044-10B1-426F-9247-BB680E5FE0C8") =
        .ok (.uuid u) ∧
      scalar "equals" .uuid
          (.string "67e55044-10b1-426f-9247-bb680e5fe0c8") =
        .ok (.uuid u)) ∧
    (∃ d : Date,
      scalar "equals" .date
          (.string " -0012345 -\x091- 2 ") = .ok (.date d) ∧
      scalar "equals" .date
          (.string "-12345-01-02") = .ok (.date d)) ∧
    (∃ d : Decimal,
      scalar "equals" .decimal (.string "-0.1e-28") =
          .ok (.decimal d) ∧
      scalar "equals" .decimal
          (.string "-0.0000000000000000000000000000") =
        .ok (.decimal d.withUnsignedZero)) := by
  have hAgain := (printed_value "equals").1
  refine ⟨?_, ?_, ?_⟩
  · let u : Uuid :=
      ⟨[6, 7, 14, 5, 5, 0, 4, 4, 1, 0, 11, 1, 4, 2, 6, 15, 9,
        2, 4, 7, 11, 11, 6, 8, 0, 14, 5, 15, 14, 0, 12, 8],
        rfl⟩
    have hRead :
        scalar "equals" .uuid
            (.string
              "URN:UUID:67E55044-10B1-426F-9247-BB680E5FE0C8")
          = .ok (.uuid u) := by
      rfl
    rcases hAgain _ _ _ (.inl rfl) hRead with
      ⟨text, hText, hScalar⟩
    have hChars :
        u.chars =
          "67e55044-10b1-426f-9247-bb680e5fe0c8".toList := by
      decide +kernel
    rw [Value.printed?, Option.some.injEq, hChars] at hText
    subst hText
    exact ⟨u, hRead, hScalar⟩
  · let d : Date := ⟨-12345, 1, 2, by decide⟩
    have hRead :
        scalar "equals" .date
            (.string " -0012345 -\x091- 2 ") =
          .ok (.date d) := by
      rfl
    rcases hAgain _ _ _ (.inr (.inl rfl)) hRead with
      ⟨text, hText, hScalar⟩
    have hChars : d.chars = "-12345-01-02".toList := by
      decide +kernel
    rw [Value.printed?, Option.some.injEq, hChars] at hText
    subst hText
    exact ⟨d, hRead, hScalar⟩
  · let d : Decimal :=
      ⟨true, 0, 28, by decide, by decide⟩
    have hRead :
        scalar "equals" .decimal (.string "-0.1e-28") =
          .ok (.decimal d) := by
      rfl
    rcases hAgain _ _ _ (.inr (.inr rfl)) hRead with
      ⟨text, hText, hScalar⟩
    have hChars :
        d.chars =
          "-0.0000000000000000000000000000".toList := by
      decide +kernel
    rw [Value.printed?, Option.some.injEq, hChars] at hText
    subst hText
    exact ⟨d, hRead, hScalar⟩

end Coercion

end Criteria
