import Criteria.Proofs.Contents

/-
  This file proves which rows come after a cursor.

  A key compares in a row as its column does with its value,
  and marks a row in a column if its value is what the row
  stores there. The boundary of keys that mark a row keeps the
  rows that are greater in the order of the sort terms of the
  same keys.

  Key definitions include:
    * `Cursor.Key.ComparesAt`
    * `Cursor.Key.Marks`

  Main statements:
    * `Contents.matching_both`
    * `Contents.keeps_boundary_single`
    * `Contents.keeps_boundary_pair`
    * `Contents.compareBy_pair`
-/

------------------------------------------------------------
-- Joined Conditions
------------------------------------------------------------

namespace Criteria

theorem Truth.and_eq_holds_iff (a b : Truth) :
    a.and b = .holds ↔ a = .holds ∧ b = .holds := by
  cases a <;> cases b <;> decide

theorem Truth.or_eq_holds_iff (a b : Truth) :
    a.or b = .holds ↔ a = .holds ∨ b = .holds := by
  cases a <;> cases b <;> decide

theorem Truth.ofBool_eq_holds_iff (b : Bool) :
    ofBool b = .holds ↔ b = true := by
  cases b <;> decide

namespace Contents

variable {Row : Type}
variable (contents : Contents Row)

theorem keeps_some_iff
    (c : Condition)
    (row : Row) :
    contents.keeps (some c) row = true ↔
      c.truth (contents.truth row) = .holds := by
  simp [keeps]

/- Both conditions keep what each of them keeps. -/
theorem keeps_both
    (c? d? : Option Condition)
    (row : Row) :
    contents.keeps (Cursor.both c? d?) row =
      (contents.keeps c? row && contents.keeps d? row) := by
  cases c? with
  | none =>
      cases d? <;> simp [Cursor.both, keeps]
  | some c =>
      cases d? with
      | none => simp [Cursor.both, keeps]
      | some d =>
          rw [Bool.eq_iff_iff, Bool.and_eq_true]
          simp only [Cursor.both, keeps_some_iff]
          rw [Condition.truth_join]
          simp only [List.map_cons, List.map_nil,
            Junction.truth, Truth.all, List.foldr_cons,
            List.foldr_nil, Truth.and_holds,
            Truth.and_eq_holds_iff]

/- A second condition selects among the matching rows. -/
theorem matching_both (c? d? : Option Condition) :
    contents.matching (Cursor.both c? d?) =
      (contents.matching c?).filter
        (contents.keeps d?) := by
  unfold matching
  rw [List.filter_filter]
  apply List.filter_congr
  intro row _
  rw [keeps_both, Bool.and_comm]

end Contents

------------------------------------------------------------
-- Keys at a Row
------------------------------------------------------------

section

variable {Row : Type}
variable {contents : Contents Row}
variable {field tie : Field}
variable {α β : Type}
variable [LinearOrder α] [LinearOrder β]

/- Two values compared in the order of a direction. -/
def Direction.compareAlong
    (direction : Direction)
    (a b : α) : Ordering :=
  match direction with
  | .ascending => compare a b
  | .descending => compare b a

theorem Direction.compareAlong_eq_iff
    (direction : Direction)
    (a b : α) :
    direction.compareAlong a b = .eq ↔ b = a := by
  cases direction with
  | ascending => exact compare_eq_iff_eq.trans eq_comm
  | descending => exact compare_eq_iff_eq

/-
  In a row, the column of a key compares with the value of
  the key as a cell does with what the value stands for.
-/
def Cursor.Key.ComparesAt
    (key : Key)
    (assign : Predicate → Truth)
    (cell : Option α)
    (bound : α) : Prop :=
  ∀ value, key.value = some value → ∀ comparison,
    assign (.compare key.column comparison value) =
      comparison.test cell bound

namespace Cursor.Key.ComparesAt

variable {key : Key}
variable {assign : Predicate → Truth}
variable {a bound : α}
variable {value : Value}

/- A cell is past the value of a key if it is greater. -/
theorem past_eq_holds_iff
    (hKey : key.ComparesAt assign (some a) bound)
    (hValue : key.value = some value) :
    assign (key.past value) = .holds ↔
      key.direction.compareAlong bound a = .lt := by
  unfold Key.past Direction.compareAlong
  cases key.direction with
  | ascending =>
      simp only [hKey value hValue, Comparison.test,
        Truth.ofBool_eq_holds_iff, decide_eq_true_eq,
        compare_lt_iff_lt]
  | descending =>
      simp only [hKey value hValue, Comparison.test,
        Truth.ofBool_eq_holds_iff, decide_eq_true_eq,
        compare_lt_iff_lt]

/- A cell is equal to the value of a key if it compares so. -/
theorem equal_eq_holds_iff
    (hKey : key.ComparesAt assign (some a) bound)
    (hValue : key.value = some value) :
    assign (key.equal value) = .holds ↔
      key.direction.compareAlong bound a = .eq := by
  rw [Direction.compareAlong_eq_iff, Key.equal,
    hKey value hValue, Comparison.test,
    Truth.ofBool_eq_holds_iff, decide_eq_true_eq]

end Cursor.Key.ComparesAt

/- A key with the value that a row stores in a column. -/
structure Cursor.Key.Marks
    (key : Key)
    (column : OrderedColumn contents field α)
    (row : Row)
    (value : Value) : Prop where
  column_eq : key.column = field.column
  value_eq : key.value = some value
  kind_eq : value.kind? = some field.kind
  cell_eq : column.cell row = some (column.meaning value)

/- A key that marks a row compares with every row. -/
theorem Cursor.Key.Marks.comparesAt
    {column : OrderedColumn contents field α}
    {key : Key}
    {row : Row}
    {value : Value}
    (hMarks : key.Marks column row value)
    (a : Row) :
    key.ComparesAt (contents.truth a) (column.cell a)
      (column.meaning value) := by
  intro other hOther comparison
  cases hMarks.value_eq.symm.trans hOther
  rw [hMarks.column_eq,
    column.truth_compare a comparison value hMarks.kind_eq]

namespace OrderedColumn

theorem compareRows_eq
    (column : OrderedColumn contents field α)
    (direction : Direction)
    {a b : Row}
    {x y : α}
    (hFirst : column.cell a = some x)
    (hSecond : column.cell b = some y) :
    column.compareRows direction a b =
      direction.compareAlong x y := by
  unfold compareRows compareOn
  rw [hFirst, hSecond]
  cases direction with
  | ascending => rfl
  | descending => rfl

/- Rows that store values compare as their values do. -/
theorem compareTerm_eq
    (column : OrderedColumn contents field α)
    {key : Cursor.Key}
    {a b : Row}
    (hColumn : key.column = field.column)
    (hFirst : (column.cell a).isSome)
    (hSecond : (column.cell b).isSome) :
    contents.compareTerm key.term a b =
      column.compareRows key.direction a b := by
  rcases Option.isSome_iff_exists.mp hFirst with ⟨x, hX⟩
  rcases Option.isSome_iff_exists.mp hSecond with ⟨y, hY⟩
  unfold Contents.compareTerm compareRows compareOn
  simp only [Cursor.Key.term, hColumn, hX, hY]
  cases key.direction with
  | ascending => exact column.order_eq a b x y hX hY
  | descending => exact column.order_eq b a y x hY hX

/- A row is past a marked row if it is greater. -/
theorem truth_past
    {column : OrderedColumn contents field α}
    {key : Cursor.Key}
    {row a : Row}
    {value : Value}
    (hMarks : key.Marks column row value)
    (hStored : (column.cell a).isSome) :
    contents.truth a (key.past value) = .holds ↔
      column.compareRows key.direction row a = .lt := by
  rcases Option.isSome_iff_exists.mp hStored with ⟨x, hX⟩
  have hKey := hMarks.comparesAt a
  rw [hX] at hKey
  rw [hKey.past_eq_holds_iff hMarks.value_eq,
    column.compareRows_eq key.direction hMarks.cell_eq hX]

/- A row is equal to a marked row if it compares so. -/
theorem truth_equal
    {column : OrderedColumn contents field α}
    {key : Cursor.Key}
    {row a : Row}
    {value : Value}
    (hMarks : key.Marks column row value)
    (hStored : (column.cell a).isSome) :
    contents.truth a (key.equal value) = .holds ↔
      column.compareRows key.direction row a = .eq := by
  rcases Option.isSome_iff_exists.mp hStored with ⟨x, hX⟩
  have hKey := hMarks.comparesAt a
  rw [hX] at hKey
  rw [hKey.equal_eq_holds_iff hMarks.value_eq,
    column.compareRows_eq key.direction hMarks.cell_eq hX]

end OrderedColumn

------------------------------------------------------------
-- Boundaries
------------------------------------------------------------

namespace Contents

/- The boundary of one key that marks a row. -/
theorem keeps_boundary_single
    {column : OrderedColumn contents field α}
    {primary : Cursor.Key}
    {row a : Row}
    {v : Value}
    (hMarks : primary.Marks column row v)
    (hStored : (column.cell a).isSome) :
    contents.keeps (Cursor.boundary? primary none) a =
      decide
        (column.compareRows primary.direction row a =
          .lt) := by
  rw [Bool.eq_iff_iff, decide_eq_true_iff,
    ← OrderedColumn.truth_past hMarks hStored]
  simp only [Cursor.boundary?, hMarks.value_eq,
    Option.bind_none, keeps_some_iff, Condition.truth_single]

/-
  The boundary of two keys that mark a row: past it by the
  first key, or equal by the first and past it by the second.
-/
theorem keeps_boundary_pair
    {column : OrderedColumn contents field α}
    {ties : OrderedColumn contents tie β}
    {primary secondary : Cursor.Key}
    {row a : Row}
    {v w : Value}
    (hMarks : primary.Marks column row v)
    (hTies : secondary.Marks ties row w)
    (hStored : (column.cell a).isSome)
    (hTieStored : (ties.cell a).isSome) :
    contents.keeps
        (Cursor.boundary? primary (some secondary)) a =
      decide
        (compareLex
            (column.compareRows primary.direction)
            (ties.compareRows secondary.direction) row a =
          .lt) := by
  have hJoin :
      contents.keeps
          (Cursor.boundary? primary (some secondary)) a =
            true ↔
        contents.truth a (primary.past v) = .holds ∨
        contents.truth a (primary.equal v) = .holds ∧
        contents.truth a (secondary.past w) = .holds := by
    simp only [Cursor.boundary?, hMarks.value_eq,
      hTies.value_eq, Option.bind_some, Option.map_some,
      keeps_some_iff, Condition.truth_join, List.map_cons,
      List.map_nil, Junction.truth, Truth.any, Truth.all,
      List.foldr_cons, List.foldr_nil, Condition.truth,
      Truth.and_holds, Truth.or_fails,
      Truth.or_eq_holds_iff, Truth.and_eq_holds_iff]
  rw [Bool.eq_iff_iff, decide_eq_true_iff, hJoin,
    OrderedColumn.truth_past hMarks hStored,
    OrderedColumn.truth_equal hMarks hStored,
    OrderedColumn.truth_past hTies hTieStored,
    compareLex, Ordering.then_eq_lt]

/- The sort term of one key orders the rows by its column. -/
theorem compareBy_single
    (column : OrderedColumn contents field α)
    {primary : Cursor.Key}
    {a b : Row}
    (hColumn : primary.column = field.column)
    (hFirst : (column.cell a).isSome)
    (hSecond : (column.cell b).isSome) :
    contents.compareBy [primary.term] a b =
      column.compareRows primary.direction a b := by
  rw [compareBy, compareBy, Ordering.then_eq,
    column.compareTerm_eq hColumn hFirst hSecond]

/- The second key decides where the first does not. -/
theorem compareBy_pair
    (column : OrderedColumn contents field α)
    (ties : OrderedColumn contents tie β)
    {primary secondary : Cursor.Key}
    {a b : Row}
    (hColumn : primary.column = field.column)
    (hTies : secondary.column = tie.column)
    (hFirst :
      (column.cell a).isSome ∧ (ties.cell a).isSome)
    (hSecond :
      (column.cell b).isSome ∧ (ties.cell b).isSome) :
    contents.compareBy [primary.term, secondary.term] a b =
      compareLex
        (column.compareRows primary.direction)
        (ties.compareRows secondary.direction) a b := by
  rw [compareBy,
    compareBy_single ties hTies hFirst.2 hSecond.2,
    column.compareTerm_eq hColumn hFirst.1 hSecond.1]
  rfl

end Contents

end

end Criteria
