import Criteria.Proofs.CursorBoundary

/-
  This file proves that the boundary of a cursor splits the
  rows of a table in three.

  The rows come after the cursor, or after it with both keys
  the other way round, or are equal to it by the keys that
  have values. A row is placed by its primary key first, and
  by the second one where the first leaves it equal. To turn
  both keys round is to swap where a row is placed, so no row
  is lost and none is on two sides.

  Key definitions include:
    * `Cursor.Key.reversed`
    * `Cursor.Key.place`
    * `Cursor.Page.Selects`
    * `Cursor.placement`

  Main statements:
    * `Cursor.selects_iff_placement`
    * `Cursor.placement_reversed`
    * `Cursor.boundary_splits`
-/

------------------------------------------------------------
-- Directions
------------------------------------------------------------

namespace Criteria

section

variable {α : Type} [LinearOrder α]

/- Values the other way round compare the other way round. -/
theorem Direction.compareAlong_reverse
    (direction : Direction)
    (a b : α) :
    direction.reverse.compareAlong a b =
      (direction.compareAlong a b).swap := by
  have hSwap :
      ∀ a b : α, compare a b = (compare b a).swap :=
    fun _ _ => Std.OrientedCmp.eq_swap
  cases direction with
  | ascending => exact hSwap b a
  | descending => exact hSwap a b

------------------------------------------------------------
-- Keys at a Row
------------------------------------------------------------

namespace Cursor

namespace Key

/- The key the other way round. -/
def reversed (key : Key) : Key :=
  { key with direction := key.direction.reverse }

/-
  Where a cell is from the value of a key, in its direction.
  A key without a value leaves all cells equal.
-/
def place
    (key : Key)
    (x a : α) : Ordering :=
  if key.value.isSome then
    key.direction.compareAlong x a
  else .eq

theorem place_of_value
    {key : Key}
    {value : Value}
    (hValue : key.value = some value)
    (x a : α) :
    key.place x a = key.direction.compareAlong x a := by
  rw [place, hValue]
  rfl

theorem place_reversed
    (key : Key)
    (x a : α) :
    key.reversed.place x a = (key.place x a).swap := by
  unfold place reversed
  by_cases hValue : key.value.isSome
  · rw [if_pos hValue, if_pos hValue,
      Direction.compareAlong_reverse]
  · rw [if_neg hValue, if_neg hValue]
    rfl

theorem place_eq_iff
    (key : Key)
    (x a : α) :
    key.place x a = .eq ↔ (key.value.isSome → a = x) := by
  unfold place
  by_cases hValue : key.value.isSome
  · rw [if_pos hValue, Direction.compareAlong_eq_iff]
    exact ⟨fun h _ => h, fun h => h hValue⟩
  · rw [if_neg hValue]
    exact ⟨fun _ h => absurd h hValue, fun _ => rfl⟩

namespace ComparesAt

variable {key : Key}
variable {assign : Predicate → Truth}
variable {x : α}
variable {value : Value}

/- Nothing is past NULL, and NULL is not past anything. -/
theorem past_null
    (hKey : key.ComparesAt assign none x)
    (hValue : key.value = some value) :
    assign (key.past value) = .unknown := by
  unfold Key.past
  cases key.direction with
  | ascending => exact hKey value hValue .greater
  | descending => exact hKey value hValue .less

theorem equal_null
    (hKey : key.ComparesAt assign none x)
    (hValue : key.value = some value) :
    assign (key.equal value) = .unknown :=
  hKey value hValue .equal

end ComparesAt

end Key

------------------------------------------------------------
-- Selected Rows
------------------------------------------------------------

/- A row is selected if a page has a condition and it holds. -/
def Page.Selects
    (page : Page)
    (assign : Predicate → Truth) : Prop :=
  ∃ c, page.condition = some c ∧ c.truth assign = .holds

section Selection

variable (assign : Predicate → Truth)
variable (limit : Option UInt64)
variable (primary : Key)
variable (secondary : Option Key)

/- What the boundary selects, by what its parts say. -/
theorem selects_iff
    {v : Value}
    (hValue : primary.value = some v) :
    (paginate none limit primary secondary).Selects assign ↔
      assign (primary.past v) = .holds ∨
      assign (primary.equal v) = .holds ∧
        ∃ key ∈ secondary, ∃ w, key.value = some w ∧
          assign (key.past w) = .holds := by
  have hSingle :
      (∃ c, some (Condition.single (primary.past v)) =
          some c ∧ c.truth assign = .holds) ↔
        assign (primary.past v) = .holds := by
    simp [Condition.truth_single]
  cases secondary with
  | none =>
      simpa [Page.Selects, paginate, both, boundary?,
        hValue] using hSingle
  | some key =>
      cases hTie : key.value with
      | none =>
          simpa [Page.Selects, paginate, both, boundary?,
            hValue, hTie] using hSingle
      | some w =>
          simp [Page.Selects, paginate, both, boundary?,
            hValue, hTie, Condition.truth_join,
            Condition.truth, Junction.truth, Truth.any,
            Truth.all, Truth.and_holds, Truth.or_fails,
            Truth.or_eq_holds_iff, Truth.and_eq_holds_iff]

/- NULL in the primary column is on no side of a cursor. -/
theorem not_selects_null
    {x : α}
    (hPrimary : primary.ComparesAt assign none x) :
    ¬ (paginate none limit primary secondary).Selects
        assign := by
  cases hValue : primary.value with
  | none =>
      simp [Page.Selects, paginate, both, boundary?, hValue]
  | some v =>
      rw [selects_iff assign limit primary secondary hValue,
        hPrimary.past_null hValue,
        hPrimary.equal_null hValue]
      simp

theorem boundary?_isSome :
    (boundary? primary secondary).isSome =
      primary.value.isSome := by
  unfold boundary?
  cases primary.value with
  | none => rfl
  | some v =>
      cases secondary.bind fun key =>
          key.value.map fun value => (key, value) <;> rfl

/- With another condition, both are to hold. -/
theorem selects_existing_iff
    (e : Condition)
    (hValue : primary.value.isSome) :
    (paginate (some e) limit primary secondary).Selects
        assign ↔
      e.truth assign = .holds ∧
      (paginate none limit primary secondary).Selects
        assign := by
  rw [← boundary?_isSome primary secondary] at hValue
  rcases Option.isSome_iff_exists.mp hValue with ⟨c, hC⟩
  simp [Page.Selects, paginate, both, hC,
    Condition.truth_join, Junction.truth, Truth.all,
    Truth.and_holds, Truth.and_eq_holds_iff]

/- Without a primary value, nothing is added. -/
theorem paginate_condition_of_none
    (existing : Option Condition)
    (hValue : primary.value = none) :
    (paginate existing limit primary secondary).condition =
      existing := by
  unfold paginate boundary?
  rw [hValue]
  cases existing <;> rfl

end Selection

------------------------------------------------------------
-- Sides of a Cursor
------------------------------------------------------------

variable {β : Type} [LinearOrder β]

/-
  Where a row is from a cursor: by the primary key, and by
  the second one where it is equal by the first.
-/
def placement
    (primary : Key)
    (secondary : Option Key)
    (x a : α)
    (y b : β) : Ordering :=
  match secondary with
  | none => primary.place x a
  | some key => (primary.place x a).then (key.place y b)

section Placement

variable (primary : Key)
variable (secondary : Option Key)
variable (x a : α)
variable (y b : β)

/- Keys the other way round swap where a row is. -/
theorem placement_reversed :
    placement primary.reversed (secondary.map Key.reversed)
        x a y b =
      (placement primary secondary x a y b).swap := by
  cases secondary with
  | none => exact primary.place_reversed x a
  | some key =>
      simp only [placement, Option.map_some,
        Key.place_reversed, Ordering.swap_then]

/- A row is at the cursor if it is equal by all keys used. -/
theorem placement_eq_iff
    (hValue : primary.value.isSome) :
    placement primary secondary x a y b = .eq ↔
      a = x ∧
      ∀ key ∈ secondary, key.value.isSome → b = y := by
  cases secondary with
  | none => simp [placement, Key.place_eq_iff, hValue]
  | some key =>
      simp [placement, Ordering.then_eq_eq,
        Key.place_eq_iff, hValue]

variable {primary secondary x a y b}

/- The boundary selects the rows that come after the cursor. -/
theorem selects_iff_placement
    {assign : Predicate → Truth}
    (limit : Option UInt64)
    (hValue : primary.value.isSome)
    (hPrimary : primary.ComparesAt assign (some a) x)
    (hSecondary :
      ∀ key ∈ secondary, key.ComparesAt assign (some b) y) :
    (paginate none limit primary secondary).Selects assign ↔
      placement primary secondary x a y b = .lt := by
  rcases Option.isSome_iff_exists.mp hValue with ⟨v, hV⟩
  rw [selects_iff assign limit primary secondary hV,
    hPrimary.past_eq_holds_iff hV,
    hPrimary.equal_eq_holds_iff hV,
    ← Key.place_of_value hV]
  cases secondary with
  | none => simp [placement]
  | some key =>
      rw [placement, Ordering.then_eq_lt]
      cases hTie : key.value with
      | none => simp [hTie, Key.place]
      | some w =>
          simp [hTie, Key.place_of_value hTie,
            (hSecondary key rfl).past_eq_holds_iff hTie]

/- The same of the boundary of the keys the other way round. -/
theorem selects_reversed_iff_placement
    {assign : Predicate → Truth}
    (limit : Option UInt64)
    (hValue : primary.value.isSome)
    (hPrimary : primary.ComparesAt assign (some a) x)
    (hSecondary :
      ∀ key ∈ secondary, key.ComparesAt assign (some b) y) :
    (paginate none limit primary.reversed
        (secondary.map Key.reversed)).Selects assign ↔
      placement primary secondary x a y b = .gt := by
  have hReversed :
      ∀ key ∈ secondary.map Key.reversed,
        key.ComparesAt assign (some b) y := by
    intro key hKey
    rcases Option.map_eq_some_iff.mp hKey with
      ⟨other, hOther, rfl⟩
    -- neither the column nor the value has a direction
    exact hSecondary other hOther
  have hSide :
      (paginate none limit primary.reversed
          (secondary.map Key.reversed)).Selects assign ↔
        placement primary.reversed
          (secondary.map Key.reversed) x a y b = .lt :=
    selects_iff_placement limit hValue hPrimary hReversed
  rw [hSide, placement_reversed, Ordering.swap_eq_lt]

end Placement

------------------------------------------------------------
-- Partition
------------------------------------------------------------

/- Of three statements one holds, and the others do not. -/
def ExactlyOne (p q r : Prop) : Prop :=
  p ∧ ¬ q ∧ ¬ r ∨ ¬ p ∧ q ∧ ¬ r ∨ ¬ p ∧ ¬ q ∧ r

/-
  A cursor with a primary value has each row with values in
  the columns of its keys on one of three sides, and a row
  with NULL for the primary key on none. Another condition
  takes rows away from a side. Without a primary value there
  is no boundary. The order and the limit of a page do not
  depend on the values.
-/
theorem boundary_splits
    (limit : Option UInt64)
    (primary : Key)
    (secondary : Option Key) :
    (∀ (assign : Predicate → Truth) (x a : α) (y b : β),
      primary.value.isSome →
      primary.ComparesAt assign (some a) x →
      (∀ key ∈ secondary,
        key.ComparesAt assign (some b) y) →
      ExactlyOne
        ((paginate none limit primary secondary).Selects
          assign)
        ((paginate none limit primary.reversed
          (secondary.map Key.reversed)).Selects assign)
        (a = x ∧
          ∀ key ∈ secondary, key.value.isSome → b = y)) ∧
    (∀ (assign : Predicate → Truth) (x : α),
      primary.ComparesAt assign none x →
      ¬ (paginate none limit primary secondary).Selects
          assign ∧
      ¬ (paginate none limit primary.reversed
          (secondary.map Key.reversed)).Selects assign) ∧
    (∀ (assign : Predicate → Truth) (e : Condition),
      primary.value.isSome →
      ((paginate (some e) limit primary secondary).Selects
          assign ↔
        e.truth assign = .holds ∧
        (paginate none limit primary secondary).Selects
          assign)) ∧
    (∀ existing,
      (primary.value = none →
        (paginate existing limit primary
          secondary).condition = existing) ∧
      (paginate existing limit primary secondary).order =
        primary.term :: (secondary.map Key.term).toList ∧
      (paginate existing limit primary secondary).limit =
        limit) := by
  refine ⟨?_, ?_, ?_, ?_⟩
  · intro assign x a y b hValue hPrimary hSecondary
    rw [selects_iff_placement limit hValue hPrimary
        hSecondary,
      selects_reversed_iff_placement limit hValue hPrimary
        hSecondary,
      ← placement_eq_iff primary secondary x a y b hValue]
    cases placement primary secondary x a y b <;>
      simp [ExactlyOne]
  · intro assign x hPrimary
    exact ⟨not_selects_null assign limit primary secondary
        hPrimary,
      not_selects_null assign limit primary.reversed
        (secondary.map Key.reversed) hPrimary⟩
  · intro assign e hValue
    exact selects_existing_iff assign limit primary
      secondary e hValue
  · intro existing
    exact ⟨paginate_condition_of_none limit primary
      secondary existing, rfl, rfl⟩

/- Views from the most to the least, ties by number. -/
def viewsKey : Key :=
  ⟨"views", ⟨"views"⟩, .descending, some (.integer 5)⟩

def idKey : Key :=
  ⟨"id", ⟨"id"⟩, .ascending, some (.integer 3)⟩

/-
  Five views and a number above three come after the cursor
  and not before it, views that are missing do not come after
  it, and no value of views leaves no boundary.
-/
theorem boundary_splits_tie :
    let assign := IntegerRow.truth [("views", 5), ("id", 4)]
    (paginate none none viewsKey (some idKey)).Selects
      assign ∧
    ¬ (paginate none none viewsKey.reversed
        (some idKey.reversed)).Selects assign ∧
    ¬ (paginate none none viewsKey (some idKey)).Selects
        (IntegerRow.truth [("id", 4)]) ∧
    (paginate none none { viewsKey with value := none }
      (some idKey)).condition = none := by
  intro assign
  have hViews : viewsKey.ComparesAt assign (some 5) 5 := by
    intro value hValue comparison
    cases hValue
    rfl
  have hId :
      ∀ key ∈ some idKey, key.ComparesAt assign (some 4) 3 := by
    intro key hKey value hValue comparison
    cases hKey
    cases hValue
    rfl
  have hNull : viewsKey.ComparesAt
      (IntegerRow.truth [("id", 4)]) none 5 := by
    intro value hValue comparison
    cases hValue
    rfl
  rcases @boundary_splits Int _ Int _ none viewsKey
      (some idKey) with ⟨hSides, hMissing, _⟩
  rcases @boundary_splits Int _ Int _ none
      { viewsKey with value := none } (some idKey) with
    ⟨_, _, _, hValueless⟩
  have hSelects :
      (paginate none none viewsKey (some idKey)).Selects
        assign :=
    ⟨_, rfl, by decide⟩
  refine ⟨hSelects, ?_, (hMissing _ 5 hNull).1,
    (hValueless none).1 rfl⟩
  rcases hSides assign 5 5 3 4 rfl hViews hId with
    ⟨_, hReversed, _⟩ | ⟨hBefore, _⟩ | ⟨hBefore, _⟩
  · exact hReversed
  · exact absurd hSelects hBefore
  · exact absurd hSelects hBefore

end Cursor

end

end Criteria
