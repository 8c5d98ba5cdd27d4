/-
  This file defines the three truth values of conditions on
  rows in which columns may be NULL.

  The connectives are those of strong three-valued logic:
  an unknown operand matters only where a known one in its
  place could change the result.

  Main statements:
    * `Truth.not_and` and `Truth.not_or`, the laws by which
      negation moves through the connectives
    * `Truth.not_all` and `Truth.not_any`, the same for lists
-/

------------------------------------------------------------
-- Truth Values
------------------------------------------------------------

namespace Criteria

inductive Truth where
  | holds
  | fails
  | unknown
deriving DecidableEq, Repr

namespace Truth

def ofBool : Bool → Truth
  | true => .holds
  | false => .fails

def not : Truth → Truth
  | .holds => .fails
  | .fails => .holds
  | .unknown => .unknown

def and : Truth → Truth → Truth
  | .fails, _ => .fails
  | _, .fails => .fails
  | .holds, .holds => .holds
  | _, _ => .unknown

def or : Truth → Truth → Truth
  | .holds, _ => .holds
  | _, .holds => .holds
  | .fails, .fails => .fails
  | _, _ => .unknown

/- Whether all of some truth values hold. -/
def all (values : List Truth) : Truth :=
  values.foldr and .holds

/- Whether any of some truth values holds. -/
def any (values : List Truth) : Truth :=
  values.foldr or .fails

------------------------------------------------------------
-- Laws
------------------------------------------------------------

theorem not_not (a : Truth) : a.not.not = a := by
  cases a <;> rfl

theorem not_and (a b : Truth) :
    (a.and b).not = a.not.or b.not := by
  cases a <;> cases b <;> rfl

theorem not_or (a b : Truth) :
    (a.or b).not = a.not.and b.not := by
  cases a <;> cases b <;> rfl

theorem and_holds (a : Truth) : a.and .holds = a := by
  cases a <;> rfl

theorem or_fails (a : Truth) : a.or .fails = a := by
  cases a <;> rfl

/- Not all hold where any of the negations does. -/
theorem not_all (values : List Truth) :
    (all values).not = any (values.map not) := by
  induction values with
  | nil => rfl
  | cons a rest ih =>
      change (a.and (all rest)).not = _
      rw [not_and, ih]
      rfl

theorem not_any (values : List Truth) :
    (any values).not = all (values.map not) := by
  induction values with
  | nil => rfl
  | cons a rest ih =>
      change (a.or (any rest)).not = _
      rw [not_or, ih]
      rfl

end Truth

end Criteria
