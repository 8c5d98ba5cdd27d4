import Criteria.Condition.Truth
import Criteria.Query
import Mathlib.Data.Int.Order.Basic
import Mathlib.Order.Compare
import Mathlib.Order.Lattice

/-
  This file defines what a database answers to a query on a
  table.

  How rows are stored is left open: a table has rows, each
  predicate has a truth value in each row, and each column
  orders the rows. A column is ordered if it compares as a
  linear order does wherever its values are not NULL.

  Key definitions include:
    * `Comparison.test`
    * `Contents`
    * `Contents.matching`
    * `Contents.Answer`
    * `OrderedColumn`
    * `Contents.ofIntegers`
-/

------------------------------------------------------------
-- Comparisons
------------------------------------------------------------

namespace Criteria

/- A cell is compared with a value. NULL compares to nothing. -/
def Comparison.test
    {α : Type}
    [LinearOrder α]
    (comparison : Comparison)
    (cell : Option α)
    (value : α) : Truth :=
  match cell with
  | none => .unknown
  | some stored =>
      .ofBool <|
        match comparison with
        | .equal => stored = value
        | .notEqual => stored ≠ value
        | .less => stored < value
        | .lessOrEqual => stored ≤ value
        | .greater => value < stored
        | .greaterOrEqual => value ≤ stored

------------------------------------------------------------
-- Answers
------------------------------------------------------------

/- The rows of a table, with the tests and orders of them. -/
structure Contents (Row : Type) where
  rows : List Row
  truth : Row → Predicate → Truth
  order : Column → Row → Row → Ordering

namespace Contents

variable {Row : Type}

/- A row stays where the condition holds, and only there. -/
def keeps
    (contents : Contents Row)
    (condition? : Option Condition)
    (row : Row) : Bool :=
  match condition? with
  | none => true
  | some c => c.truth (contents.truth row) = .holds

def matching
    (contents : Contents Row)
    (condition? : Option Condition) : List Row :=
  contents.rows.filter (contents.keeps condition?)

def compareTerm
    (contents : Contents Row)
    (term : SortTerm)
    (a b : Row) : Ordering :=
  match term.direction with
  | .ascending => contents.order term.column a b
  | .descending => contents.order term.column b a

/- Later terms decide between rows that are equal so far. -/
def compareBy
    (contents : Contents Row) :
    List SortTerm → Row → Row → Ordering
  | [], _, _ => .eq
  | term :: rest, a, b =>
      (contents.compareTerm term a b).then
        (contents.compareBy rest a b)

/- The part of a list that offset and limit leave. -/
def slice
    (limit offset : Option UInt64)
    (rows : List Row) : List Row :=
  let rest :=
    match offset with
    | none => rows
    | some n => rows.drop n.toNat
  match limit with
  | none => rest
  | some n => rest.take n.toNat

/-
  An answer to a query: the rows that match, in some order
  that the sort terms allow, cut to offset and limit.
-/
def Answer
    (contents : Contents Row)
    (q : Query)
    (answer : List Row) : Prop :=
  ∃ sorted : List Row,
    sorted.Perm (contents.matching q.condition) ∧
    sorted.Pairwise (fun a b =>
      contents.compareBy q.order a b ≠ .gt) ∧
    answer = slice q.limit q.offset sorted

end Contents

------------------------------------------------------------
-- Ordered Columns
------------------------------------------------------------

/-
  A column of a field whose values are linearly ordered. A
  cell is what a row stores, none where it is NULL, and a
  bound value stands for the stored value `meaning` gives.
-/
structure OrderedColumn
    {Row : Type}
    (contents : Contents Row)
    (field : Field)
    (α : Type)
    [LinearOrder α] where
  cell : Row → Option α
  meaning : Value → α
  truth_compare
    (row : Row)
    (comparison : Comparison)
    (value : Value)
    (hKind : value.kind? = some field.kind) :
    contents.truth row
        (.compare field.column comparison value) =
      comparison.test (cell row) (meaning value)
  order_eq
    (a b : Row)
    (x y : α)
    (hFirst : cell a = some x)
    (hSecond : cell b = some y) :
    contents.order field.column a b = compare x y

namespace OrderedColumn

variable {Row : Type}
variable {contents : Contents Row}
variable {field : Field}
variable {α : Type}
variable [LinearOrder α]

/- Rows compared by their cells, NULL before all values. -/
def compareRows
    (column : OrderedColumn contents field α)
    (direction : Direction)
    (a b : Row) : Ordering :=
  match direction with
  | .ascending => compareOn column.cell a b
  | .descending => compareOn column.cell b a

instance
    (column : OrderedColumn contents field α)
    (direction : Direction) :
    Std.TransCmp (column.compareRows direction) := by
  cases direction with
  | ascending =>
      exact inferInstanceAs
        (Std.TransCmp (compareOn column.cell))
  | descending =>
      exact inferInstanceAs
        (Std.TransCmp fun a b => compareOn column.cell b a)

end OrderedColumn

end Criteria

------------------------------------------------------------
-- Rows of Integers
------------------------------------------------------------

namespace Criteria

/- A row of integers by column name. What is missing is NULL. -/
abbrev IntegerRow := List (String × Int)

namespace IntegerRow

def cell
    (column : Column)
    (row : IntegerRow) : Option Int :=
  row.lookup column.name

/- Only integers are stored, so other values stand for none. -/
def meaning : Value → Int
  | .integer n => n.toInt
  | _ => 0

/- Patterns and list elements are not decided by integers. -/
def truth
    (row : IntegerRow) : Predicate → Truth
  | .compare column comparison value =>
      comparison.test (row.cell column) (meaning value)
  | .null column negated =>
      Condition.negateTruthIf negated
        (.ofBool (row.cell column).isNone)
  | .member column negated values =>
      Condition.negateTruthIf negated
        (.any (values.map fun value =>
          Comparison.equal.test (row.cell column)
            (meaning value)))
  | .like _ _ _ _ => .unknown
  | .element _ _ => .unknown
  | .constant b => .ofBool b

end IntegerRow

/- The contents of a table whose rows are rows of integers. -/
def Contents.ofIntegers
    (rows : List IntegerRow) : Contents IntegerRow :=
  { rows := rows
    truth := IntegerRow.truth
    order := fun column a b =>
      compare (a.cell column) (b.cell column) }

/- Each column of such a table is ordered as integers are. -/
def OrderedColumn.ofIntegers
    (rows : List IntegerRow)
    (field : Field) :
    OrderedColumn (Contents.ofIntegers rows) field Int :=
  { cell := IntegerRow.cell field.column
    meaning := IntegerRow.meaning
    truth_compare := fun _ _ _ _ => rfl
    order_eq := by
      intro a b x y hFirst hSecond
      simp only [Contents.ofIntegers, hFirst, hSecond]
      rfl }

end Criteria
