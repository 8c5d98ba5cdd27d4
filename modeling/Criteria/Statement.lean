import Criteria.Condition.Expression
import Criteria.Query

/-
  This file applies translated queries to a table, giving a
  statement.

  Relations are not part of the statement. A selection that
  selects nothing leaves all columns of the table.

  Key definitions include:
    * `Statement`
    * `Query.statement`
    * `Statement.sql`
-/

------------------------------------------------------------
-- Statements
------------------------------------------------------------

namespace Criteria

/- A selection of rows of one table. -/
structure Statement where
  table : String
  columns : List Column
  condition : Option Condition
  order : List (Column × Direction)
  limit : Option UInt64
  offset : Option UInt64

namespace Query

/- The names that a query selects, in order. -/
def selectedNames (q : Query) : List String :=
  ((q.columns.getD []).filter fun entry => entry.2).map
    fun entry => entry.1

/- The columns of the selected names, if they have them. -/
def selectedColumns
    (q : Query)
    (schema : Schema) : Except Error (List Column) :=
  q.selectedNames.mapM fun name => do
    return (← schema.resolve name).column

/- The statement of a query on a table. -/
def statement
    (q : Query)
    (table : Table)
    (schema : Schema) : Except Error Statement := do
  let selected ← q.selectedColumns schema
  return {
    table := table.name
    columns :=
      if selected = [] then table.columns else selected
    condition := q.condition
    order := q.order.map fun term =>
      (term.column, term.direction)
    limit := q.limit
    offset := q.offset }

end Query

------------------------------------------------------------
-- Statement Text
------------------------------------------------------------

namespace Statement

/- A column with the table it belongs to. -/
def qualified
    (table : String)
    (column : Column) : String :=
  Sql.identifier table ++ "." ++ Sql.identifier column.name

def directionWord : Direction → String
  | .ascending => "ASC"
  | .descending => "DESC"

def columnsSql (s : Statement) : Sql :=
  [.text ("SELECT " ++
    ", ".intercalate (s.columns.map (qualified s.table)) ++
    " FROM " ++ Sql.identifier s.table)]

def conditionSql (s : Statement) : Sql :=
  match s.condition with
  | none => []
  | some c => .text " WHERE " :: c.sql

def orderSql (s : Statement) : Sql :=
  let terms := s.order.map fun term =>
    qualified s.table term.1 ++ " " ++ directionWord term.2
  match terms with
  | [] => []
  | _ => [.text (" ORDER BY " ++ ", ".intercalate terms)]

/- A clause with a count, where the count is given. -/
def countSql
    (word : String)
    (count : Option UInt64) : Sql :=
  match count with
  | none => []
  | some n => [.text word, .value (.unsigned n)]

/- The statement as text with bound values. -/
def sql (s : Statement) : Sql :=
  s.columnsSql ++ s.conditionSql ++ s.orderSql ++
    countSql " LIMIT " s.limit ++
    countSql " OFFSET " s.offset

end Statement

end Criteria
