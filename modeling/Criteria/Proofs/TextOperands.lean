import Criteria.Coercion

/-
  This file proves which operands are read from a text.

  Decimals, unique identifiers, instants, dates and times are
  read from strings, and decimals from the text of numbers as
  well. An operand of such a kind has a value exactly if its
  text has one.

  Key definitions include:
    * `Kind.IsRead`
    * `Kind.read?`
    * `Json.readText?`

  Main statements:
    * `Coercion.scalar_eq_ok_iff_read`
    * `Coercion.scalar_eq_error_of_unread`
-/

------------------------------------------------------------
-- Operands Read from Text
------------------------------------------------------------

namespace Criteria

/- Values of the kind are read from a text. -/
inductive Kind.IsRead : Kind → Prop where
  | decimal : IsRead .decimal
  | uuid : IsRead .uuid
  | instant : IsRead .instant
  | date : IsRead .date
  | time : IsRead .time

/- The value of a kind that a text is read as. -/
def Kind.read?
    (kind : Kind)
    (text : List Char) : Option Value :=
  match kind with
  | .decimal => (Decimal.ofChars? text).map .decimal
  | .uuid => (Uuid.ofChars? text).map .uuid
  | .instant => (Instant.ofChars? text).map .instant
  | .date => (Date.ofChars? text).map .date
  | .time => (TimeOfDay.ofChars? text).map .time
  | _ => none

/- The text of an operand that a kind is read from. -/
def Json.readText?
    (kind : Kind) : Json → Option (List Char)
  | .string s => some s.toList
  | .number n => if kind = .decimal then some n.chars else none
  | _ => none

namespace Coercion

theorem readable_eq_ok_iff
    {α : Type}
    {op text : String}
    {kind : Kind}
    {wrap : α → Value}
    {read : List Char → Option α}
    {value : Value} :
    readable op kind text wrap read = .ok value ↔
      (read text.toList).map wrap = some value := by
  unfold readable
  cases read text.toList with
  | none => simp
  | some a => simp

/- The value of an operand is the value of its text. -/
theorem scalar_eq_ok_iff_read
    {op : String}
    {kind : Kind}
    {operand : Json}
    {value : Value}
    (hRead : kind.IsRead) :
    scalar op kind operand = .ok value ↔
      ∃ text, operand.readText? kind = some text ∧
        kind.read? text = some value := by
  cases hRead <;>
    cases operand <;>
    simp [scalar, mismatch, readable_eq_ok_iff,
      Json.readText?, Kind.read?]

/- A string that no value is read from is refused. -/
theorem scalar_eq_error_of_unread
    {op text : String}
    {kind : Kind}
    (hRead : kind.IsRead)
    (hUnread : kind.read? text.toList = none) :
    scalar op kind (.string text) =
      .error (.invalidOperand op (.unreadable text kind)) := by
  cases hRead <;>
    rw [Kind.read?, Option.map_eq_none_iff] at hUnread <;>
    simp [scalar, readable, hUnread]

end Coercion

end Criteria
