import Criteria.Condition.Expression
import Criteria.Cursor
import Criteria.Statement
import Mathlib.Data.List.Basic

/-
  This file proves which predicates a condition tests, and
  which values the text of a condition, and of a statement,
  binds.

  Writing a condition as text keeps its values in order, and
  so does building it: conditions are joined, negated and
  taken out of junctions again, and none of this adds, drops
  or moves a predicate.

  Key definitions include:
    * `Condition.tests`
    * `Condition.mapPredicates`
    * `Condition.bound`
    * `Statement.countValues`

  Main statements:
    * `Condition.tests_combine`
    * `Condition.map_combine`
    * `Condition.values_sql`
    * `Condition.bound_combine`
    * `Cursor.bound_both`
    * `Statement.values_sql`
-/

------------------------------------------------------------
-- Values in Statement Text
------------------------------------------------------------

namespace Criteria

namespace Sql

theorem values_nil : values [] = [] :=
  rfl

theorem values_text_cons
    (s : String)
    (rest : Sql) :
    values (.text s :: rest) = values rest :=
  rfl

theorem values_append (sql rest : Sql) :
    values (sql ++ rest) = values sql ++ values rest :=
  List.filterMap_append

theorem values_parenthesized (sql : Sql) :
    values (parenthesized sql) = values sql := by
  rw [parenthesized, List.cons_append, values_text_cons,
    values_append, values_text_cons, values_nil,
    List.append_nil]

theorem values_joinWith
    (separator : String)
    (parts : List Sql) :
    values (joinWith separator parts) =
      parts.flatMap values := by
  induction parts with
  | nil => rfl
  | cons sql rest ih =>
      cases rest with
      | nil => simp [joinWith]
      | cons next rest =>
          have hJoin :
              joinWith separator (sql :: next :: rest) =
                sql ++ .text separator ::
                  joinWith separator (next :: rest) :=
            rfl
          rw [hJoin, values_append, values_text_cons, ih]
          rfl

end Sql

/- A predicate binds its values as it lists them. -/
theorem Predicate.values_sql (p : Predicate) :
    Sql.values p.sql = p.values := by
  cases p with
  | compare column comparison value => rfl
  | null column negated => rfl
  | member column negated values =>
      have hEach :
          (values.map fun value =>
            [Fragment.value value]).flatMap Sql.values =
              values := by
        rw [List.flatMap_map]
        exact List.flatMap_singleton' values
      rw [Predicate.sql, Sql.values_text_cons,
        Sql.values_parenthesized, Sql.values_joinWith, hEach]
      rfl
  | like column negated mode pattern => cases mode <;> rfl
  | element column value => rfl
  | constant b => cases b <;> rfl

namespace Expression

def values : Expression → List Value
  | .predicate p => p.values
  | .literal _ => []
  | .not e => e.values
  | .binary _ left right => left.values ++ right.values

theorem values_parenthesizeIf
    (loose : Bool)
    (sql : Sql) :
    Sql.values (parenthesizeIf loose sql) =
      Sql.values sql := by
  cases loose
  · rfl
  · exact Sql.values_parenthesized sql

theorem values_sql (e : Expression) :
    Sql.values e.sql = e.values := by
  induction e with
  | predicate p => exact p.values_sql
  | literal b => cases b <;> rfl
  | not e ih =>
      rw [sql, Sql.values_text_cons, values_parenthesizeIf,
        ih, values]
  | binary kind left right ihLeft ihRight =>
      rw [sql, Sql.values_append, Sql.values_text_cons,
        values_parenthesizeIf, values_parenthesizeIf, ihLeft,
        ihRight, values]

/- A chain binds what its operands bind, one after another. -/
theorem values_chain
    (kind : Junction)
    (operands : List Expression) :
    (chain kind operands).values =
      operands.flatMap values := by
  have hFold : ∀ (rest : List Expression) (e : Expression),
      (rest.foldl (.binary kind) e).values =
        e.values ++ rest.flatMap values := by
    intro rest
    induction rest with
    | nil => simp
    | cons next rest ih =>
        intro e
        rw [List.foldl_cons, ih, values, List.flatMap_cons,
          List.append_assoc]
  cases operands with
  | nil => rfl
  | cons e rest => exact hFold rest e

end Expression

------------------------------------------------------------
-- Predicates of Built Conditions
------------------------------------------------------------

namespace Condition

theorem partPredicates_eq_flatMap
    (parts : List Condition) :
    partPredicates parts = parts.flatMap predicates := by
  induction parts with
  | nil => rfl
  | cons c rest ih =>
      rw [partPredicates, ih, List.flatMap_cons]

theorem predicates_single (p : Predicate) :
    (single p).predicates = [p] :=
  rfl

theorem predicates_negate (c : Condition) :
    c.negate.predicates = c.predicates := by
  cases c <;> rfl

theorem predicates_negateIf
    (negated : Bool)
    (c : Condition) :
    (c.negateIf negated).predicates = c.predicates := by
  cases negated
  · rfl
  · exact predicates_negate c

theorem predicates_element (c : Condition) :
    c.element.predicates = c.predicates := by
  unfold element
  split
  · simp [predicates, partPredicates]
  · rfl

theorem predicates_join
    (kind : Junction)
    (parts : List Condition) :
    (join kind parts).predicates =
      parts.flatMap predicates := by
  rw [join, predicates, partPredicates_eq_flatMap,
    List.flatMap_map]
  apply List.flatMap_congr
  intro c _
  exact predicates_element c

/- The predicates of a condition, if there is one. -/
def tests : Option Condition → List Predicate
  | none => []
  | some c => c.predicates

theorem tests_eq_flatMap (c? : Option Condition) :
    tests c? = c?.toList.flatMap predicates := by
  cases c? with
  | none => rfl
  | some c => simp [tests]

theorem tests_combine
    (kind : Junction)
    (conditions : List Condition) :
    tests (combine kind conditions) =
      conditions.flatMap predicates := by
  match conditions with
  | [] => rfl
  | [c] => simp [combine, tests]
  | c :: d :: rest => exact predicates_join kind (c :: d :: rest)

theorem tests_wrap
    (kind : Junction)
    (conditions : List Condition) :
    tests (wrap kind conditions) =
      conditions.flatMap predicates := by
  cases conditions with
  | nil => rfl
  | cons c rest => exact predicates_join kind (c :: rest)

------------------------------------------------------------
-- Conditions with Other Predicates
------------------------------------------------------------

section Predicates

variable (f : Predicate → Predicate)

mutual

/- The condition of the same form with other predicates. -/
def mapPredicates : Condition → Condition
  | .predicate p => .predicate (f p)
  | .junction negated kind parts =>
      .junction negated kind (mapParts parts)

def mapParts : List Condition → List Condition
  | [] => []
  | c :: rest => c.mapPredicates :: mapParts rest

end

theorem mapParts_eq_map (parts : List Condition) :
    mapParts f parts = parts.map (mapPredicates f) := by
  induction parts with
  | nil => rfl
  | cons c rest ih => rw [mapParts, ih, List.map_cons]

theorem mapPredicates_junction
    (negated : Bool)
    (kind : Junction)
    (parts : List Condition) :
    (junction negated kind parts).mapPredicates f =
      junction negated kind
        (parts.map (mapPredicates f)) := by
  rw [mapPredicates, mapParts_eq_map]

theorem mapPredicates_single (p : Predicate) :
    (single p).mapPredicates f = single (f p) := by
  rw [single, mapPredicates_junction]
  rfl

theorem mapPredicates_negate (c : Condition) :
    c.negate.mapPredicates f =
      (c.mapPredicates f).negate := by
  cases c with
  | predicate p =>
      rw [negate, mapPredicates_junction]
      rfl
  | junction negated kind parts =>
      rw [negate, mapPredicates_junction,
        mapPredicates_junction, negate]

theorem mapPredicates_element (c : Condition) :
    c.element.mapPredicates f =
      (c.mapPredicates f).element := by
  cases c with
  | predicate p => rfl
  | junction negated kind parts =>
      rw [mapPredicates_junction]
      match negated, parts with
      | false, [part] => rfl
      | false, [] => rfl
      | false, _ :: _ :: _ =>
          rw [element, element, mapPredicates_junction] <;>
            simp
      | true, parts =>
          rw [element, element, mapPredicates_junction] <;>
            simp

theorem mapPredicates_join
    (kind : Junction)
    (parts : List Condition) :
    (join kind parts).mapPredicates f =
      join kind (parts.map (mapPredicates f)) := by
  rw [join, join, mapPredicates_junction, List.map_map,
    List.map_map]
  congr 1
  exact List.map_congr_left fun c _ =>
    mapPredicates_element f c

theorem map_combine
    (kind : Junction)
    (parts : List Condition) :
    (combine kind parts).map (mapPredicates f) =
      combine kind (parts.map (mapPredicates f)) := by
  match parts with
  | [] => rfl
  | [c] => rfl
  | c :: next :: rest =>
      exact congrArg some
        (mapPredicates_join f kind (c :: next :: rest))

theorem map_wrap
    (kind : Junction)
    (parts : List Condition) :
    (wrap kind parts).map (mapPredicates f) =
      wrap kind (parts.map (mapPredicates f)) := by
  cases parts with
  | nil => rfl
  | cons c rest =>
      exact congrArg some
        (mapPredicates_join f kind (c :: rest))

mutual

theorem predicates_mapPredicates : ∀ c : Condition,
    (c.mapPredicates f).predicates = c.predicates.map f
  | .predicate p => rfl
  | .junction negated kind parts => by
      rw [mapPredicates, predicates, predicates,
        partPredicates_mapParts parts]

theorem partPredicates_mapParts :
    ∀ parts : List Condition,
    partPredicates (mapParts f parts) =
      (partPredicates parts).map f
  | [] => rfl
  | c :: rest => by
      rw [mapParts, partPredicates, partPredicates,
        List.map_append, predicates_mapPredicates c,
        partPredicates_mapParts rest]

end

end Predicates

------------------------------------------------------------
-- Values of Built Conditions
------------------------------------------------------------

theorem values_predicate (p : Predicate) :
    (predicate p).values = p.values :=
  List.flatMap_singleton Predicate.values p

theorem values_junction
    (negated : Bool)
    (kind : Junction)
    (parts : List Condition) :
    (junction negated kind parts).values =
      parts.flatMap values := by
  rw [values, predicates, partPredicates_eq_flatMap,
    List.flatMap_assoc]
  rfl

mutual

theorem values_expression : ∀ c : Condition,
    c.expression.values = c.values
  | .predicate p => by
      rw [expression, Expression.values, values_predicate]
  | .junction negated kind parts => by
      have hParts :
          (Expression.chain kind (expressions parts)).values =
            parts.flatMap values := by
        rw [Expression.values_chain,
          values_expressions parts]
      rw [expression, values_junction]
      cases negated with
      | false => exact hParts
      | true => exact hParts

theorem values_expressions : ∀ parts : List Condition,
    (expressions parts).flatMap Expression.values =
      parts.flatMap values
  | [] => rfl
  | c :: rest => by
      rw [expressions, List.flatMap_cons, List.flatMap_cons,
        values_expression c, values_expressions rest]

end

/- The text of a condition binds the values of it in order. -/
theorem values_sql (c : Condition) :
    Sql.values c.sql = c.values := by
  rw [sql, Expression.values_sql, values_expression]

theorem values_single (p : Predicate) :
    (single p).values = p.values := by
  rw [values, predicates_single, List.flatMap_singleton]

theorem values_negateIf
    (negated : Bool)
    (c : Condition) :
    (c.negateIf negated).values = c.values := by
  rw [values, values, predicates_negateIf]

theorem values_join
    (kind : Junction)
    (parts : List Condition) :
    (join kind parts).values = parts.flatMap values := by
  rw [values, predicates_join, List.flatMap_assoc]
  rfl

/- The parameters of the text of a condition, if given. -/
def bound : Option Condition → List Value
  | none => []
  | some c => Sql.values c.sql

theorem bound_some (c : Condition) :
    bound (some c) = c.values :=
  values_sql c

/- A condition binds the values of its predicates. -/
theorem bound_eq_tests (c? : Option Condition) :
    bound c? = (tests c?).flatMap Predicate.values := by
  cases c? with
  | none => rfl
  | some c => exact bound_some c

theorem bound_eq_flatMap (c? : Option Condition) :
    bound c? = c?.toList.flatMap values := by
  rw [bound_eq_tests, tests_eq_flatMap, List.flatMap_assoc]
  rfl

theorem bound_combine
    (kind : Junction)
    (conditions : List Condition) :
    bound (combine kind conditions) =
      conditions.flatMap values := by
  rw [bound_eq_tests, tests_combine, List.flatMap_assoc]
  rfl

theorem bound_wrap
    (kind : Junction)
    (conditions : List Condition) :
    bound (wrap kind conditions) =
      conditions.flatMap values := by
  rw [bound_eq_tests, tests_wrap, List.flatMap_assoc]
  rfl

end Condition

------------------------------------------------------------
-- Values of Boundaries
------------------------------------------------------------

namespace Cursor

open Condition

theorem values_past
    (key : Key)
    (value : Value) :
    (key.past value).values = [value] := by
  unfold Key.past
  cases key.direction <;> rfl

/- One key bounds by its value. -/
theorem bound_boundary?_none (primary : Key) :
    bound (boundary? primary none) =
      primary.value.toList := by
  cases hValue : primary.value with
  | none => simp [boundary?, hValue, bound]
  | some v =>
      simp only [boundary?, hValue, Option.bind_none,
        bound_some, values_single, values_past,
        Option.toList_some]

/- Two keys bound by their values, if both have one. -/
theorem bound_boundary?_some (primary secondary : Key) :
    bound (boundary? primary (some secondary)) =
      match primary.value, secondary.value with
      | none, _ => []
      | some v, none => [v]
      | some v, some w => [v, v, w] := by
  cases hValue : primary.value with
  | none => simp [boundary?, hValue, bound]
  | some v =>
      cases hTie : secondary.value with
      | none =>
          simp only [boundary?, hValue, hTie,
            Option.bind_some, Option.map_none, bound_some,
            values_single, values_past]
      | some w =>
          have hEqual :
              (primary.equal v).values = [v] :=
            rfl
          simp only [boundary?, hValue, hTie,
            Option.bind_some, Option.map_some, bound_some,
            values_join, List.flatMap_cons, List.flatMap_nil,
            values_predicate, values_past, hEqual,
            List.append_nil, List.cons_append,
            List.nil_append]

/- Joined conditions bind one after the other. -/
theorem bound_both (c? d? : Option Condition) :
    bound (both c? d?) = bound c? ++ bound d? := by
  cases c? with
  | none => cases d? <;> rfl
  | some c =>
      cases d? with
      | none => exact (List.append_nil _).symm
      | some d =>
          simp only [both, bound_some, values_join,
            List.flatMap_cons, List.flatMap_nil,
            List.append_nil]

end Cursor

------------------------------------------------------------
-- Values of Statements
------------------------------------------------------------

namespace Statement

open Condition

/- A count is bound where it is given. -/
def countValues (count : Option UInt64) : List Value :=
  count.toList.map .unsigned

theorem values_countSql
    (word : String)
    (count : Option UInt64) :
    Sql.values (countSql word count) = countValues count := by
  cases count <;> rfl

theorem values_conditionSql (s : Statement) :
    Sql.values s.conditionSql = bound s.condition := by
  unfold conditionSql
  cases s.condition <;> rfl

theorem values_orderSql (s : Statement) :
    Sql.values s.orderSql = [] := by
  unfold orderSql
  cases s.order <;> rfl

/- Nothing but the condition and the counts is bound. -/
theorem values_sql (s : Statement) :
    Sql.values s.sql =
      bound s.condition ++ countValues s.limit ++
        countValues s.offset := by
  have hColumns : Sql.values s.columnsSql = [] := rfl
  simp only [sql, Sql.values_append, hColumns,
    values_conditionSql, values_orderSql, values_countSql,
    List.nil_append, List.append_nil]

end Statement

end Criteria
