import Criteria.Condition
import Criteria.Truth

/-
  This file defines the truth of conditions, given the truth
  of their predicates.

  Key definitions include:
    * `Condition.truth`
    * `Junction.truth?`

  Main statements:
    * `Condition.truth_negate`
    * `Condition.truth_element`
    * `Condition.truth_join`
    * `Condition.truth_combine`
    * `Condition.truth_wrap`
-/

------------------------------------------------------------
-- Truth of Conditions
------------------------------------------------------------

namespace Criteria

namespace Junction

/- The truth of a junction of parts. -/
def truth : Junction → List Truth → Truth
  | .all => Truth.all
  | .any => Truth.any

/- A junction of one part is that part. -/
theorem truth_singleton
    (kind : Junction)
    (a : Truth) :
    kind.truth [a] = a := by
  cases kind
  · exact Truth.and_holds a
  · exact Truth.or_fails a

/- The truth of what is said, none where nothing is said. -/
def truth?
    (kind : Junction) : List Truth → Option Truth
  | [] => none
  | values => some (kind.truth values)

theorem truth?_singleton
    (kind : Junction)
    (a : Truth) :
    kind.truth? [a] = some a :=
  congrArg some (kind.truth_singleton a)

theorem truth?_eq_none_iff
    (kind : Junction)
    (values : List Truth) :
    kind.truth? values = none ↔ values = [] := by
  cases values <;> simp [truth?]

theorem truth?_eq_some_iff
    (kind : Junction)
    (values : List Truth)
    (a : Truth) :
    kind.truth? values = some a ↔
      values ≠ [] ∧ kind.truth values = a := by
  cases values <;> simp [truth?]

end Junction

namespace Condition

/- The truth value of a part that may be negated. -/
def negateTruthIf
    (negated : Bool)
    (a : Truth) : Truth :=
  if negated then a.not else a

mutual

/- The truth of a condition where predicates have theirs. -/
def truth
    (assign : Predicate → Truth) : Condition → Truth
  | .predicate p => assign p
  | .junction negated kind parts =>
      negateTruthIf negated
        (kind.truth (partTruths assign parts))

def partTruths
    (assign : Predicate → Truth) :
    List Condition → List Truth
  | [] => []
  | c :: rest => c.truth assign :: partTruths assign rest

end

/- Parts are evaluated one by one. -/
theorem partTruths_eq_map
    (assign : Predicate → Truth)
    (parts : List Condition) :
    partTruths assign parts = parts.map (truth assign) := by
  induction parts with
  | nil => rfl
  | cons c rest ih => simp [partTruths, ih]

------------------------------------------------------------
-- Truth of Built Conditions
------------------------------------------------------------

variable (assign : Predicate → Truth)

theorem truth_single (p : Predicate) :
    (single p).truth assign = assign p := by
  simp [single, truth, partTruths, negateTruthIf,
    Junction.truth_singleton]

/- Negating a condition negates its truth. -/
theorem truth_negate (c : Condition) :
    c.negate.truth assign = (c.truth assign).not := by
  cases c with
  | predicate p =>
      simp [negate, truth, partTruths, negateTruthIf,
        Junction.truth_singleton]
  | junction negated kind parts =>
      cases negated <;>
        simp [negate, truth, negateTruthIf, Truth.not_not]

/- What a condition adds to a junction is as true as it is. -/
theorem truth_element (c : Condition) :
    c.element.truth assign = c.truth assign := by
  unfold element
  split
  · simp [truth, partTruths, negateTruthIf,
      Junction.truth_singleton]
  · rfl

/- A junction of conditions joins their truths. -/
theorem truth_join
    (kind : Junction)
    (parts : List Condition) :
    (join kind parts).truth assign =
      kind.truth (parts.map (truth assign)) := by
  have hElements :
      parts.map (fun c => c.element.truth assign) =
        parts.map (truth assign) := by
    apply List.map_congr_left
    intro c _
    exact truth_element assign c
  simpa [join, truth, negateTruthIf, partTruths_eq_map,
    Function.comp_def] using congrArg kind.truth hElements

/- Conditions combined say what they say joined. -/
theorem truth_combine
    (kind : Junction)
    (conditions : List Condition) :
    (combine kind conditions).map (truth assign) =
      kind.truth? (conditions.map (truth assign)) := by
  match conditions with
  | [] => rfl
  | [c] => exact (kind.truth?_singleton _).symm
  | c :: d :: rest =>
      exact congrArg some
        (truth_join assign kind (c :: d :: rest))

/- The same of conditions that are always wrapped. -/
theorem truth_wrap
    (kind : Junction)
    (conditions : List Condition) :
    (wrap kind conditions).map (truth assign) =
      kind.truth? (conditions.map (truth assign)) := by
  match conditions with
  | [] => rfl
  | c :: rest =>
      exact congrArg some (truth_join assign kind (c :: rest))

end Condition

end Criteria
