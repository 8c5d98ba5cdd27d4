import Criteria.Condition.Expression
import Criteria.Filter.Condition
import Criteria.Proofs.Outcome

/-
  This file proves that a conjunction that is written out is
  the one that is meant anyway.

  Conditions are compared without the junctions of a single
  part, which the text of a condition does not show either.
  So compared, entries under `AND`, each in an object of its
  own, are the entries beside each other, and a filter alone
  under `AND`, or as the one alternative, is the filter.

  Key definitions include:
    * `Condition.bare`
    * `Condition.SameBare`

  Main statements:
    * `Condition.expression_bare`
    * `Condition.bare_combine`
    * `Filter.agree_entries_apart`
    * `Filter.agree_alone`
    * `Filter.conjunction_spelled_out`
-/

------------------------------------------------------------
-- Bare Conditions
------------------------------------------------------------

namespace Criteria

namespace Condition

/- A junction, or its one part if it says no more than that. -/
def bareJunction
    (negated : Bool)
    (kind : Junction)
    (parts : List Condition) : Condition :=
  match negated, parts with
  | false, [c] => c
  | _, _ => .junction negated kind parts

mutual

/- A condition without junctions of a single part. -/
def bare : Condition → Condition
  | .predicate p => .predicate p
  | .junction negated kind parts =>
      bareJunction negated kind (bareParts parts)

def bareParts : List Condition → List Condition
  | [] => []
  | c :: rest => c.bare :: bareParts rest

end

theorem bareParts_eq_map (parts : List Condition) :
    bareParts parts = parts.map bare := by
  induction parts with
  | nil => rfl
  | cons c rest ih => rw [bareParts, ih, List.map_cons]

/- A junction of bare conditions, if there are any. -/
def bareJoin?
    (kind : Junction) : List Condition → Option Condition
  | [] => none
  | parts => some (bareJunction false kind parts)

theorem bareJoin?_toList
    (kind : Junction)
    (c? : Option Condition) :
    bareJoin? kind c?.toList = c? := by
  cases c? <;> rfl

/- What is taken out of a junction stays what it is. -/
theorem bare_element (c : Condition) :
    c.element.bare = c.bare := by
  unfold element
  split
  · rfl
  · rfl

theorem bare_join
    (kind : Junction)
    (parts : List Condition) :
    (join kind parts).bare =
      bareJunction false kind (parts.map bare) := by
  simp only [join, bare, bareParts_eq_map, List.map_map,
    Function.comp_def, bare_element]

/- Combined or wrapped, conditions are joined alike. -/
theorem bare_combine
    (kind : Junction)
    (conditions : List Condition) :
    (combine kind conditions).map bare =
      bareJoin? kind (conditions.map bare) := by
  match conditions with
  | [] => rfl
  | [c] => rfl
  | c :: d :: rest =>
      exact congrArg some (bare_join kind (c :: d :: rest))

theorem bare_wrap
    (kind : Junction)
    (conditions : List Condition) :
    (wrap kind conditions).map bare =
      bareJoin? kind (conditions.map bare) := by
  match conditions with
  | [] => rfl
  | c :: rest =>
      exact congrArg some (bare_join kind (c :: rest))

/- One condition, combined or wrapped, is that condition. -/
theorem bare_combine_toList
    (kind : Junction)
    (c? : Option Condition) :
    (combine kind c?.toList).map bare = c?.map bare := by
  rw [bare_combine, ← Option.toList_map, bareJoin?_toList]

theorem bare_wrap_toList
    (kind : Junction)
    (c? : Option Condition) :
    (wrap kind c?.toList).map bare = c?.map bare := by
  rw [bare_wrap, ← Option.toList_map, bareJoin?_toList]

------------------------------------------------------------
-- Text of Bare Conditions
------------------------------------------------------------

theorem expression_bareJunction
    (negated : Bool)
    (kind : Junction)
    (parts : List Condition) :
    (bareJunction negated kind parts).expression =
      (junction negated kind parts).expression := by
  unfold bareJunction
  split
  · rfl
  · rfl

mutual

/- A chain of one operand is written as the operand. -/
theorem expression_bare : ∀ c : Condition,
    c.bare.expression = c.expression
  | .predicate p => rfl
  | .junction negated kind parts => by
      rw [bare, expression_bareJunction, expression,
        expression, expressions_bareParts parts]

theorem expressions_bareParts :
    ∀ parts : List Condition,
      expressions (bareParts parts) = expressions parts
  | [] => rfl
  | c :: rest => by
      rw [bareParts, expressions, expressions,
        expression_bare c, expressions_bareParts rest]

end

/- Conditions that are bare alike are written alike. -/
theorem sql_eq_of_bare
    {c d : Condition}
    (hBare : c.bare = d.bare) : c.sql = d.sql := by
  rw [sql, sql, ← expression_bare c, ← expression_bare d,
    hBare]

/-
  Both say nothing, or both say the same up to junctions of a
  single part, with the same text and the same values in it.
-/
def SameBare (c? d? : Option Condition) : Prop :=
  c?.map bare = d?.map bare ∧ c?.map sql = d?.map sql

theorem sameBare_of_eq
    {c? d? : Option Condition}
    (hBare : c?.map bare = d?.map bare) :
    SameBare c? d? := by
  refine ⟨hBare, ?_⟩
  cases c? with
  | none =>
      rw [Option.map_none, eq_comm, Option.map_eq_none_iff]
        at hBare
      rw [hBare]
  | some c =>
      rcases Option.map_eq_some_iff.mp hBare.symm with
        ⟨d, hGiven, hSame⟩
      rw [hGiven, Option.map_some, Option.map_some,
        sql_eq_of_bare hSame.symm]

end Condition

------------------------------------------------------------
-- Entries Apart
------------------------------------------------------------

namespace Filter

open Except Condition

variable {schema : Schema}

/- A filter of one entry wraps what the entry says. -/
theorem condition?_singleton
    (context : Context)
    (entry : Key × Content) :
    condition? schema context ⟨[entry]⟩ =
      (fun c? => wrap context.junction c?.toList) <$>
        entryCondition? schema context entry.1 entry.2 := by
  rw [condition?, entryConditions, entryConditions]
  cases entryCondition? schema context entry.1 entry.2 with
  | error e => rfl
  | ok c? => cases c? <;> rfl

/- So entries apart say what they say beside each other. -/
theorem agree_entries_apart
    (entries : List (Key × Content)) :
    Agree (fun cs ds => cs.map bare = ds.map bare)
      (itemConditions schema
        (entries.map fun entry => ⟨[entry]⟩))
      (entryConditions schema .conjunctive entries) := by
  induction entries with
  | nil => exact .ok rfl
  | cons entry rest ih =>
      rw [List.map_cons, itemConditions, entryConditions,
        condition?_singleton]
      have hFirst :
          Agree (fun c? d? => c?.map bare = d?.map bare)
            ((fun c? => wrap .all c?.toList) <$>
              entryCondition? schema .conjunctive entry.1
                entry.2)
            (entryCondition? schema .conjunctive entry.1
              entry.2) := by
        cases entryCondition? schema .conjunctive entry.1
            entry.2 with
        | error e => exact .error e
        | ok c? => exact .ok (bare_wrap_toList .all c?)
      apply hFirst.bind
      intro c? d? hSame
      apply ih.bind
      intro cs ds hRest
      apply Agree.ok
      rw [List.map_append, List.map_append, hRest,
        ← Option.toList_map, ← Option.toList_map, hSame]

/- A filter of one entry says what the entry says. -/
theorem agree_alone
    {entry : Key × Content}
    {x : Except Error (Option Condition)}
    (hEntry :
      Agree (fun c? d? => c?.map bare = d?.map bare)
        (entryCondition? schema .conjunctive entry.1 entry.2)
        x) :
    Agree SameBare
      (condition? schema .conjunctive ⟨[entry]⟩) x := by
  rw [condition?_singleton]
  generalize entryCondition? schema .conjunctive entry.1
    entry.2 = said at hEntry ⊢
  cases hEntry with
  | error e => exact .error e
  | ok hSame =>
      apply Agree.ok
      apply sameBare_of_eq
      exact (bare_wrap_toList .all _).trans hSame

/- One filter under a connective other than `NOT` is itself. -/
theorem agree_combine_alone
    (kind : Junction)
    (f : Filter) :
    Agree (fun c? d? => c?.map bare = d?.map bare)
      (do
        let c? ← f.condition? schema .conjunctive
        return combine kind c?.toList)
      (f.condition? schema .conjunctive) := by
  cases f.condition? schema .conjunctive with
  | error e => exact .error e
  | ok c? => exact .ok (bare_combine_toList kind c?)

theorem itemConditions_singleton (f : Filter) :
    itemConditions schema [f] =
      Option.toList <$> f.condition? schema .conjunctive := by
  rw [itemConditions, itemConditions]
  cases f.condition? schema .conjunctive with
  | error e => rfl
  | ok c? => cases c? <;> rfl

theorem agree_branches_alone
    (op : Connective)
    (kind : Junction)
    (hConnect : ∀ conditions,
      connect op .conjunctive conditions =
        combine kind conditions)
    (f : Filter) :
    Agree (fun c? d? => c?.map bare = d?.map bare)
      (entryCondition? schema .conjunctive (.connective op)
        (.branches [f]))
      (f.condition? schema .conjunctive) := by
  have hAlone := @agree_combine_alone schema kind f
  rw [entryCondition?, itemConditions_singleton]
  simp only [hConnect]
  cases hCondition : f.condition? schema .conjunctive with
  | error e => exact .error e
  | ok c? => rwa [hCondition] at hAlone

------------------------------------------------------------
-- Conjunctions Written Out
------------------------------------------------------------

/-
  Entries under `AND`, each in an object of its own, compile
  like the entries beside each other. A filter alone under
  `AND`, in an array or not, or as the one alternative of an
  array, compiles like the filter.
-/
theorem conjunction_spelled_out (schema : Schema) :
    (∀ entries : List (Key × Content),
      Agree SameBare
        (condition? schema .conjunctive
          ⟨[(.connective .and, .branches
            (entries.map fun entry => ⟨[entry]⟩))]⟩)
        (condition? schema .conjunctive ⟨entries⟩)) ∧
    ∀ f : Filter,
      Agree SameBare
        (condition? schema .conjunctive
          ⟨[(.connective .and, .branches [f])]⟩)
        (f.condition? schema .conjunctive) ∧
      Agree SameBare
        (condition? schema .conjunctive
          ⟨[(.connective .and, .branch f)]⟩)
        (f.condition? schema .conjunctive) ∧
      Agree SameBare
        (condition? schema .conjunctive
          ⟨[(.connective .or, .branches [f])]⟩)
        (f.condition? schema .conjunctive) := by
  refine ⟨?_, fun f => ⟨?_, ?_, ?_⟩⟩
  · intro entries
    apply agree_alone
    rw [entryCondition?, condition?]
    apply (agree_entries_apart entries).bind
    intro cs ds hSame
    apply Agree.ok
    rw [connect, bare_combine, hSame]
    exact (bare_wrap .all ds).symm
  · exact agree_alone
      (agree_branches_alone .and .all (fun _ => rfl) f)
  · exact agree_alone (agree_combine_alone .all f)
  · exact agree_alone
      (agree_branches_alone .or .any (fun _ => rfl) f)

end Filter

end Criteria
