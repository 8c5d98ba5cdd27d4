import Criteria.Proofs.ConditionValues
import Mathlib.Data.List.Forall2

/-
  This file proves that the text of a statement does not
  depend on the values that it binds.

  A value is blanked by putting the same value of its type in
  its place for all. Building a condition and writing it as
  text never look at a value, and so blanking can be done
  before or after either of them.

  Key definitions include:
    * `Value.blank`
    * `Condition.blank`
    * `Statement.blank`

  Main statements:
    * `Condition.sql_blank`
    * `Cursor.boundary?_blank`
    * `Statement.sql_blank`
    * `Statement.template_eq_of_blank`
    * `Statement.kinds_of_blank`
-/

------------------------------------------------------------
-- Blank Values
------------------------------------------------------------

namespace Criteria

/- One value of each kind. -/
def Kind.sample : Kind → Value
  | .string => .string ""
  | .integer => .integer 0
  | .real => .real ⟨0⟩
  | .boolean => .boolean false
  | .uuid =>
      .uuid ⟨List.replicate 32 ⟨0, by decide⟩,
        List.length_replicate⟩
  | .instant => .instant ⟨0, 0⟩
  | .date => .date ⟨1970, 1, 1, by decide⟩
  | .time => .time ⟨0, 0⟩
  | .decimal =>
      .decimal ⟨false, 0, 0, by decide, Nat.zero_le _⟩

namespace Value

/- A value of the same type that says nothing else. -/
def blank (v : Value) : Value :=
  match v.kind? with
  | some kind => kind.sample
  | none => .unsigned 0

theorem kind?_blank (v : Value) :
    v.blank.kind? = v.kind? := by
  cases v <;> rfl

/- Values are blanked alike if they are of one type. -/
theorem blank_eq_iff (v w : Value) :
    v.blank = w.blank ↔ v.kind? = w.kind? := by
  constructor
  · intro hBlank
    rw [← kind?_blank v, hBlank, kind?_blank]
  · intro hKind
    rw [blank, blank, hKind]

end Value

namespace Sql

def blankFragment : Fragment → Fragment
  | .text s => .text s
  | .value v => .value v.blank

def blank (sql : Sql) : Sql :=
  sql.map blankFragment

theorem blank_append (sql rest : Sql) :
    blank (sql ++ rest) = blank sql ++ blank rest :=
  List.map_append

theorem blank_text_cons
    (s : String)
    (rest : Sql) :
    blank (.text s :: rest) = .text s :: blank rest :=
  rfl

theorem blank_parenthesized (sql : Sql) :
    blank (parenthesized sql) = parenthesized (blank sql) := by
  simp [blank, parenthesized, blankFragment]

theorem blank_joinWith
    (separator : String)
    (parts : List Sql) :
    blank (joinWith separator parts) =
      joinWith separator (parts.map blank) := by
  induction parts with
  | nil => rfl
  | cons sql rest ih =>
      cases rest with
      | nil => rfl
      | cons next others =>
          have hJoin : ∀ (first second : Sql)
              (more : List Sql),
              joinWith separator (first :: second :: more) =
                first ++ .text separator ::
                  joinWith separator (second :: more) := by
            intro first second more
            rw [joinWith]
            simp
          rw [hJoin, blank_append, blank_text_cons, ih]
          exact (hJoin _ _ _).symm

/- A placeholder is numbered, whatever stands in its place. -/
theorem templateFrom_blank
    (n : Nat)
    (sql : Sql) :
    templateFrom n (blank sql) = templateFrom n sql := by
  induction sql generalizing n with
  | nil => rfl
  | cons fragment rest ih =>
      cases fragment with
      | text s => exact congrArg (s ++ ·) (ih n)
      | value v =>
          exact congrArg (placeholder n ++ ·) (ih (n + 1))

theorem values_blank (sql : Sql) :
    values (blank sql) = (values sql).map Value.blank := by
  induction sql with
  | nil => rfl
  | cons fragment rest ih =>
      cases fragment with
      | text s => exact ih
      | value v => exact congrArg (v.blank :: ·) ih

end Sql

------------------------------------------------------------
-- Blank Expressions
------------------------------------------------------------

namespace Predicate

def blank : Predicate → Predicate
  | .compare column comparison value =>
      .compare column comparison value.blank
  | .null column negated => .null column negated
  | .member column negated values =>
      .member column negated (values.map Value.blank)
  | .like column negated mode _ =>
      .like column negated mode ""
  | .element column value => .element column value.blank
  | .constant b => .constant b

theorem sql_blank (p : Predicate) :
    p.blank.sql = Sql.blank p.sql := by
  cases p with
  | member column negated values =>
      rw [blank, sql, sql, Sql.blank_text_cons,
        Sql.blank_parenthesized, Sql.blank_joinWith,
        List.map_map, List.map_map]
      rfl
  | like column negated mode pattern => cases mode <;> rfl
  | constant b => cases b <;> rfl
  | _ => rfl

theorem isLoose_blank (p : Predicate) :
    p.blank.isLoose = p.isLoose := by
  cases p with
  | like column negated mode pattern => cases mode <;> rfl
  | _ => rfl

end Predicate

namespace Expression

def blank : Expression → Expression
  | .predicate p => .predicate p.blank
  | .literal b => .literal b
  | .not e => .not e.blank
  | .binary kind left right =>
      .binary kind left.blank right.blank

theorem isLoose_blank (e : Expression) :
    e.blank.isLoose = e.isLoose := by
  cases e with
  | predicate p => exact p.isLoose_blank
  | _ => rfl

theorem isLooseLeft_blank
    (kind : Junction)
    (e : Expression) :
    e.blank.isLooseLeft kind = e.isLooseLeft kind := by
  cases e with
  | predicate p => exact p.isLoose_blank
  | _ => rfl

theorem parenthesizeIf_blank
    (loose : Bool)
    (sql : Sql) :
    parenthesizeIf loose (Sql.blank sql) =
      Sql.blank (parenthesizeIf loose sql) := by
  cases loose with
  | false => rfl
  | true => exact (Sql.blank_parenthesized sql).symm

theorem sql_blank (e : Expression) :
    e.blank.sql = Sql.blank e.sql := by
  induction e with
  | predicate p => exact p.sql_blank
  | literal b => cases b <;> rfl
  | not e ih =>
      rw [blank, sql, sql, isLoose_blank, ih,
        parenthesizeIf_blank, Sql.blank_text_cons]
  | binary kind left right ihLeft ihRight =>
      rw [blank, sql, sql, isLoose_blank, isLooseLeft_blank,
        ihLeft, ihRight, parenthesizeIf_blank,
        parenthesizeIf_blank, Sql.blank_append,
        Sql.blank_text_cons]

theorem chain_blank
    (kind : Junction)
    (operands : List Expression) :
    (chain kind operands).blank =
      chain kind (operands.map blank) := by
  have hFold : ∀ (rest : List Expression) (e : Expression),
      (rest.foldl (.binary kind) e).blank =
        (rest.map blank).foldl (.binary kind) e.blank := by
    intro rest
    induction rest with
    | nil =>
        intro e
        rfl
    | cons next rest ih =>
        intro e
        exact ih (.binary kind e next)
  cases operands with
  | nil => rfl
  | cons e rest => exact hFold rest e

end Expression

------------------------------------------------------------
-- Blank Conditions
------------------------------------------------------------

namespace Condition

mutual

def blank : Condition → Condition
  | .predicate p => .predicate p.blank
  | .junction negated kind parts =>
      .junction negated kind (blankParts parts)

def blankParts : List Condition → List Condition
  | [] => []
  | c :: rest => c.blank :: blankParts rest

end

mutual

theorem blank_eq_mapPredicates : ∀ c : Condition,
    c.blank = c.mapPredicates Predicate.blank
  | .predicate p => rfl
  | .junction negated kind parts => by
      rw [blank, mapPredicates, blankParts_eq_mapParts parts]

theorem blankParts_eq_mapParts : ∀ parts : List Condition,
    blankParts parts = mapParts Predicate.blank parts
  | [] => rfl
  | c :: rest => by
      rw [blankParts, mapParts, blank_eq_mapPredicates c,
        blankParts_eq_mapParts rest]

end

/- To blank is to blank each predicate. -/
theorem blank_eq :
    blank = mapPredicates Predicate.blank :=
  funext blank_eq_mapPredicates

theorem blank_junction
    (negated : Bool)
    (kind : Junction)
    (parts : List Condition) :
    (junction negated kind parts).blank =
      junction negated kind (parts.map blank) := by
  rw [blank_eq]
  exact mapPredicates_junction _ negated kind parts

mutual

theorem expression_blank : ∀ c : Condition,
    c.blank.expression = c.expression.blank
  | .predicate p => by
      rw [blank, expression, expression, Expression.blank]
  | .junction negated kind parts => by
      have hParts :
          Expression.chain kind
              (expressions (parts.map blank)) =
            (Expression.chain kind
              (expressions parts)).blank := by
        rw [Expression.chain_blank,
          expressions_blank parts]
      rw [blank_junction, expression, expression]
      cases negated with
      | false => exact hParts
      | true => exact congrArg Expression.not hParts

theorem expressions_blank : ∀ parts : List Condition,
    expressions (parts.map blank) =
      (expressions parts).map Expression.blank
  | [] => rfl
  | c :: rest => by
      rw [List.map_cons, expressions, expressions,
        List.map_cons, expression_blank c,
        expressions_blank rest]

end

/- The text of a blank condition is the blank text. -/
theorem sql_blank (c : Condition) :
    c.blank.sql = Sql.blank c.sql := by
  rw [sql, sql, expression_blank, Expression.sql_blank]

theorem blank_single (p : Predicate) :
    (single p).blank = single p.blank := by
  rw [blank_eq]
  exact mapPredicates_single _ p

theorem blank_negate (c : Condition) :
    c.negate.blank = c.blank.negate := by
  rw [blank_eq]
  exact mapPredicates_negate _ c

theorem blank_negateIf
    (negated : Bool)
    (c : Condition) :
    (c.negateIf negated).blank = c.blank.negateIf negated := by
  cases negated with
  | false => rfl
  | true => exact c.blank_negate

theorem blank_join
    (kind : Junction)
    (parts : List Condition) :
    (join kind parts).blank =
      join kind (parts.map blank) := by
  rw [blank_eq]
  exact mapPredicates_join _ kind parts

theorem blank_combine
    (kind : Junction)
    (parts : List Condition) :
    (combine kind parts).map blank =
      combine kind (parts.map blank) := by
  rw [blank_eq]
  exact map_combine _ kind parts

theorem blank_wrap
    (kind : Junction)
    (parts : List Condition) :
    (wrap kind parts).map blank =
      wrap kind (parts.map blank) := by
  rw [blank_eq]
  exact map_wrap _ kind parts

end Condition

------------------------------------------------------------
-- Blank Cursors
------------------------------------------------------------

namespace Cursor

namespace Key

def blank (key : Key) : Key :=
  { key with value := key.value.map Value.blank }

theorem blank_past
    (key : Key)
    (v : Value) :
    (key.past v).blank = key.blank.past v.blank := by
  rcases key with ⟨field, column, direction, value⟩
  cases direction <;> rfl

theorem term_blank (key : Key) :
    key.blank.term = key.term :=
  rfl

end Key

/- The boundary of blank keys is the blank boundary. -/
theorem boundary?_blank
    (primary : Key)
    (secondary : Option Key) :
    (boundary? primary secondary).map Condition.blank =
      boundary? primary.blank (secondary.map Key.blank) := by
  have hPast : ∀ (key : Key) (v : Value),
      (Condition.predicate (key.past v)).blank =
        .predicate (key.blank.past v.blank) := by
    intro key v
    exact congrArg Condition.predicate (key.blank_past v)
  rcases primary with ⟨field, column, direction, value⟩
  cases value with
  | none => rfl
  | some v =>
      let first : Key := ⟨field, column, direction, some v⟩
      have hSingle :
          (Condition.single (first.past v)).blank =
            .single (first.blank.past v.blank) := by
        rw [Condition.blank_single, Key.blank_past]
      match secondary with
      | none => exact congrArg some hSingle
      | some ⟨_, _, _, none⟩ => exact congrArg some hSingle
      | some ⟨other, tied, reversed, some w⟩ =>
          let second : Key := ⟨other, tied, reversed, some w⟩
          have hTie :
              (Condition.join .all
                [.predicate (first.equal v),
                  .predicate (second.past w)]).blank =
                .join .all
                  [.predicate (first.blank.equal v.blank),
                    .predicate
                      (second.blank.past w.blank)] := by
            rw [Condition.blank_join, List.map_cons,
              List.map_singleton, hPast]
            rfl
          refine congrArg some ?_
          rw [Condition.blank_join, List.map_cons,
            List.map_singleton, hTie, hPast]

theorem both_blank (c? d? : Option Condition) :
    (both c? d?).map Condition.blank =
      both (c?.map Condition.blank)
        (d?.map Condition.blank) := by
  cases c? with
  | none => cases d? <;> rfl
  | some c =>
      cases d? with
      | none => rfl
      | some d =>
          exact congrArg some
            (Condition.blank_join .all [c, d])

end Cursor

------------------------------------------------------------
-- Blank Statements
------------------------------------------------------------

namespace Statement

def blankCount (count : Option UInt64) : Option UInt64 :=
  count.map fun _ => 0

def blank (s : Statement) : Statement :=
  { s with
    condition := s.condition.map Condition.blank
    limit := blankCount s.limit
    offset := blankCount s.offset }

theorem countSql_blank
    (word : String)
    (count : Option UInt64) :
    countSql word (blankCount count) =
      Sql.blank (countSql word count) := by
  cases count <;> rfl

theorem conditionSql_blank (s : Statement) :
    s.blank.conditionSql = Sql.blank s.conditionSql := by
  unfold conditionSql blank
  cases s.condition with
  | none => rfl
  | some c => exact congrArg (_ :: ·) c.sql_blank

theorem orderSql_blank (s : Statement) :
    s.blank.orderSql = Sql.blank s.orderSql := by
  unfold orderSql blank
  simp only
  split
  · rfl
  · rfl

/- The text of a blank statement is the blank text. -/
theorem sql_blank (s : Statement) :
    s.blank.sql = Sql.blank s.sql := by
  have hColumns :
      s.blank.columnsSql = Sql.blank s.columnsSql :=
    rfl
  have hLimit :
      countSql " LIMIT " s.blank.limit =
        Sql.blank (countSql " LIMIT " s.limit) :=
    countSql_blank _ _
  have hOffset :
      countSql " OFFSET " s.blank.offset =
        Sql.blank (countSql " OFFSET " s.offset) :=
    countSql_blank _ _
  unfold sql
  rw [hColumns, hLimit, hOffset, conditionSql_blank,
    orderSql_blank]
  simp only [Sql.blank_append]

variable {s u : Statement}

/- Statements that differ in values only have one text. -/
theorem template_eq_of_blank
    (hBlank : s.blank = u.blank) :
    s.sql.template = u.sql.template := by
  have hSame : Sql.blank s.sql = Sql.blank u.sql := by
    rw [← sql_blank, hBlank, sql_blank]
  unfold Sql.template
  rw [← Sql.templateFrom_blank, hSame,
    Sql.templateFrom_blank]

/- Their values are of the same types, one by one. -/
theorem kinds_of_blank
    (hBlank : s.blank = u.blank) :
    List.Forall₂ (fun v w => v.kind? = w.kind?)
      s.sql.values u.sql.values := by
  have hSame :
      s.sql.values.map Value.blank =
        u.sql.values.map Value.blank := by
    rw [← Sql.values_blank, ← sql_blank, hBlank, sql_blank,
      Sql.values_blank]
  rw [← List.forall₂_eq_eq_eq, List.forall₂_map_left_iff,
    List.forall₂_map_right_iff] at hSame
  refine hSame.imp ?_
  intro v w hValue
  exact (Value.blank_eq_iff v w).mp hValue

end Statement

end Criteria
