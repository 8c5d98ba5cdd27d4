import Criteria.Proofs.Contents
import Mathlib.Data.List.Pairwise

/-
  This file proves what the pages of a strictly sorted table
  are.

  If no two matching rows are equal in the order of a query,
  the order leaves one sorted list of them, and the answer to
  the query is the first part of that list. After one of its
  rows come exactly the rows that are greater.

  Main statements:
    * `Contents.exists_sorted`
    * `Contents.filter_after`
    * `Contents.answer_iff`
-/

------------------------------------------------------------
-- Strictly Sorted Rows
------------------------------------------------------------

namespace Criteria

namespace Contents

variable {Row : Type}
variable (order : Row → Row → Ordering)
variable [Std.TransCmp order]

/- Rows that differ in an order can be strictly sorted. -/
theorem exists_sorted
    (rows : List Row)
    (hDistinct : rows.Pairwise fun a b => order a b ≠ .eq) :
    ∃ all : List Row,
      all.Perm rows ∧
      all.Pairwise fun a b => order a b = .lt := by
  let le : Row → Row → Bool := fun a b => (order a b).isLE
  have hPerm : (rows.mergeSort le).Perm rows :=
    List.mergeSort_perm rows le
  have hSorted :
      (rows.mergeSort le).Pairwise fun a b => le a b := by
    apply List.pairwise_mergeSort
    · intro a b c hFirst hSecond
      exact Std.TransCmp.isLE_trans hFirst hSecond
    · intro a b
      have hSwap : order b a = (order a b).swap :=
        Std.OrientedCmp.eq_swap
      cases hOrder : order a b <;> simp [le, hSwap, hOrder]
  have hDiffer :
      (rows.mergeSort le).Pairwise fun a b =>
        order a b ≠ .eq := by
    apply hDistinct.perm hPerm.symm
    intro a b hNe hEq
    exact hNe (Std.OrientedCmp.eq_symm hEq)
  refine ⟨rows.mergeSort le, hPerm, ?_⟩
  apply (hSorted.and hDiffer).imp
  rintro a b ⟨hLe, hNe⟩
  cases hOrder : order a b with
  | lt => rfl
  | eq => exact absurd hOrder hNe
  | gt => simp [le, hOrder] at hLe

/- Strictly sorted rows are sorted in one way only. -/
theorem eq_of_sorted
    {sorted all : List Row}
    (hPerm : sorted.Perm all)
    (hSorted : sorted.Pairwise fun a b => order a b ≠ .gt)
    (hStrict : all.Pairwise fun a b => order a b = .lt) :
    sorted = all := by
  have hWeak : all.Pairwise fun a b => order a b ≠ .gt := by
    apply hStrict.imp
    intro a b hLess
    simp [hLess]
  have hDiffer : all.Pairwise fun a b => order a b ≠ .eq := by
    apply hStrict.imp
    intro a b hLess
    simp [hLess]
  refine hPerm.eq_of_pairwise ?_ hSorted hWeak
  intro a b hFirst hSecond hLe hGe
  by_contra hNe
  have hSymm : Std.Symm fun x y => order x y ≠ .eq :=
    ⟨fun _ _ hOther hEq =>
      hOther (Std.OrientedCmp.eq_symm hEq)⟩
  have hNotEqual : order a b ≠ .eq :=
    hDiffer.forall (hPerm.mem_iff.mp hFirst) hSecond hNe
  have hSwap : order b a = (order a b).swap :=
    Std.OrientedCmp.eq_swap
  cases hOrder : order a b with
  | lt => simp [hSwap, hOrder] at hGe
  | eq => exact hNotEqual hOrder
  | gt => exact hLe hOrder

/- After a row come the rows that are greater. -/
theorem filter_after
    {before rest : List Row}
    {row : Row}
    (hStrict : (before ++ row :: rest).Pairwise
      fun a b => order a b = .lt) :
    (before ++ row :: rest).filter
        (fun a => order row a = .lt) = rest := by
  rcases List.pairwise_append.mp hStrict with
    ⟨_, hRest, hBefore⟩
  rcases List.pairwise_cons.mp hRest with ⟨hAfter, _⟩
  have hNone :
      before.filter (fun a => order row a = .lt) = [] := by
    apply List.filter_eq_nil_iff.mpr
    intro a hMember
    have hLess := hBefore a hMember row List.mem_cons_self
    simp [Std.OrientedCmp.gt_of_lt hLess]
  have hSelf : order row row = .eq :=
    Std.ReflCmp.compare_self
  have hAll :
      rest.filter (fun a => order row a = .lt) = rest := by
    apply List.filter_eq_self.mpr
    intro a hMember
    simp [hAfter a hMember]
  rw [List.filter_append, hNone, List.filter_cons]
  simp [hSelf, hAll]

------------------------------------------------------------
-- Answers
------------------------------------------------------------

/-
  The answer to a query whose terms order the matching rows
  strictly: the first rows of the sorted list.
-/
theorem answer_iff
    {contents : Contents Row}
    {q : Query}
    {limit : UInt64}
    {all : List Row}
    (hLimit : q.limit = some limit)
    (hOffset : q.offset = none)
    (hPerm : all.Perm (contents.matching q.condition))
    (hStrict : all.Pairwise fun a b => order a b = .lt)
    (hOrder : ∀ a ∈ all, ∀ b ∈ all,
      contents.compareBy q.order a b = order a b)
    (page : List Row) :
    contents.Answer q page ↔
      page = all.take limit.toNat := by
  have hSlice (rows : List Row) :
      slice q.limit q.offset rows =
        rows.take limit.toNat := by
    rw [hLimit, hOffset]
    rfl
  constructor
  · rintro ⟨sorted, hMatching, hSorted, rfl⟩
    have hSame : sorted.Perm all :=
      hMatching.trans hPerm.symm
    have hOther :
        sorted.Pairwise fun a b => order a b ≠ .gt := by
      apply hSorted.imp_of_mem
      intro a b hFirst hSecond hNotGreater
      rwa [← hOrder a (hSame.mem_iff.mp hFirst)
        b (hSame.mem_iff.mp hSecond)]
    rw [hSlice, eq_of_sorted order hSame hOther hStrict]
  · rintro rfl
    refine ⟨all, hPerm, ?_, (hSlice all).symm⟩
    apply hStrict.imp_of_mem
    intro a b hFirst hSecond hLess
    simp [hOrder a hFirst b hSecond, hLess]

end Contents

end Criteria
