import Criteria.Proofs.DepthBound
import Criteria.Proofs.FilterShapes

/-
  This file proves what a translation reads of the bound on
  levels where there is no filter.

  The bound is then only the number of levels that are left
  at the start, and the name of the bound in the error. All
  other errors are about one place and are the same for every
  bound.

  Key definitions include:
    * `Error.IsShallow`
    * `Error.rebound`
    * `Translator.finish`

  Main statements:
    * `Translator.translateWithin_of_filter_none`
    * `Translator.mapError_translateWithin`
-/

------------------------------------------------------------
-- Errors without a Bound
------------------------------------------------------------

namespace Criteria

namespace Error

/- An error that is not about the depth of something. -/
def IsShallow : Error → Prop
  | .nestingTooDeep _ => False
  | _ => True

/- The same error, with one bound in place of another. -/
def rebound (old new : Nat) : Error → Error
  | .nestingTooDeep most =>
      .nestingTooDeep (if most = old then new else most)
  | e => e

theorem IsShallow.rebound_eq
    {e : Error}
    (hShallow : e.IsShallow)
    (old new : Nat) : e.rebound old new = e := by
  cases e with
  | nestingTooDeep most => exact hShallow.elim
  | _ => rfl

end Error

open Except

theorem Error.IsRefusal.isShallow
    {e : Error}
    (hRefusal : e.IsRefusal) : e.IsShallow := by
  cases e with
  | nestingTooDeep most => exact hRefusal.elim
  | _ => trivial

theorem Schema.isShallow_resolve
    (schema : Schema)
    (name : String) :
    ErrorsAre Error.IsShallow (schema.resolve name) :=
  (schema.isRefusal_resolve name).mono
    fun _ hRefusal => hRefusal.isShallow

theorem Coercion.isShallow_scalar
    {op : String}
    {kind : Kind}
    (operand : Json) :
    ErrorsAre Error.IsShallow (scalar op kind operand) :=
  (isRefusal_scalar operand).mono
    fun _ hRefusal => hRefusal.isShallow

namespace SortKey

theorem isShallow_directionOf
    (field : String)
    (value : Json) :
    ErrorsAre Error.IsShallow (directionOf field value) := by
  unfold directionOf
  simp only
  split
  · exact .ok _
  · exact .error trivial

theorem isShallow_ofMembers (members : Json.Members) :
    ErrorsAre Error.IsShallow (ofMembers members) :=
  ErrorsAre.mapM fun member _ =>
    (isShallow_directionOf member.1 member.2).map _

end SortKey

namespace Description

theorem isShallow_readMembers (value : Json) :
    ErrorsAre Error.IsShallow (readMembers value) := by
  cases value with
  | object members => exact .ok members
  | _ => exact .error trivial

theorem isShallow_readCount (value : Json) :
    ErrorsAre Error.IsShallow (readCount value) := by
  unfold readCount
  split
  · split
    · exact .error trivial
    · split
      · exact .ok _
      · exact .error trivial
  · exact .error trivial

theorem isShallow_readOrderBy (value : Json) :
    ErrorsAre Error.IsShallow (readOrderBy value) := by
  unfold readOrderBy
  split
  · exact .ok _
  · split
    · exact .ok _
    · exact .error trivial
  · exact .error trivial

theorem isShallow_setMember
    (d : Description)
    (member : Member)
    (value : Json) :
    ErrorsAre Error.IsShallow (d.setMember member value) := by
  by_cases hValue : value = .null
  · rw [hValue]
    exact .ok d
  · rw [setMember_of_ne hValue]
    cases member with
    | take => exact (isShallow_readCount value).map _
    | skip => exact (isShallow_readCount value).map _
    | orderBy => exact (isShallow_readOrderBy value).map _
    | _ => exact (isShallow_readMembers value).map _

theorem isShallow_ofMembers (members : Json.Members) :
    ErrorsAre Error.IsShallow (ofMembers members) := by
  refine ErrorsAre.foldlM (fun d entry => ?_) empty members
  unfold setNamed
  split
  · exact isShallow_setMember d _ entry.2
  · exact .error trivial

theorem isShallow_sortKeys (d : Description) :
    ErrorsAre Error.IsShallow d.sortKeys := by
  unfold sortKeys
  cases d.orderBy with
  | some order => exact SortKey.isShallow_ofMembers _
  | none => exact .ok []

end Description

namespace Translator

variable (t : Translator)

theorem isShallow_columns? (members? : Option Json.Members) :
    ErrorsAre Error.IsShallow (columns? members?) := by
  cases members? with
  | none => exact .ok none
  | some members =>
      refine (ErrorsAre.map _ ?_).map _
      refine ErrorsAre.mapM fun member _ => ?_
      unfold selectColumn
      split
      · exact .ok _
      · exact .error trivial
      · exact .error trivial

theorem isShallow_sortTerms (keys : List SortKey) :
    ErrorsAre Error.IsShallow (t.sortTerms keys) :=
  ErrorsAre.mapM fun key _ =>
    (t.schema.isShallow_resolve key.field).map _

theorem isShallow_cursorKey
    (keys : List SortKey)
    (name : String)
    (value : Json) :
    ErrorsAre Error.IsShallow (t.cursorKey keys name value) := by
  refine (t.schema.isShallow_resolve name).bind
    fun field _ => ?_
  refine ErrorsAre.map _ ?_
  cases value with
  | null => exact .ok none
  | _ => exact (Coercion.isShallow_scalar _).map _

theorem isShallow_cursorKeys
    (keys : List SortKey)
    (members : Json.Members) :
    ErrorsAre Error.IsShallow (t.cursorKeys keys members) := by
  have hMember :
      ErrorsAre Error.IsShallow
        (primaryMember t.settings.tiebreaker members) := by
    unfold primaryMember
    split
    · exact .ok _
    · split
      · exact .ok _
      · exact .error trivial
    · exact .error trivial
  refine hMember.bind fun member _ => ?_
  refine (t.isShallow_cursorKey keys member.1 member.2).bind
    fun primary _ => ?_
  split
  · exact .ok _
  · exact (t.isShallow_cursorKey keys _ _).map _

theorem isShallow_applyCursor
    (keys : List SortKey)
    (cursor? : Option Json.Members)
    (q : Query) :
    ErrorsAre Error.IsShallow
      (t.applyCursor keys cursor? q) := by
  cases cursor? with
  | none => exact .ok q
  | some members =>
      exact (t.isShallow_cursorKeys keys members).bind
        fun _ _ => .ok _

end Translator

end Criteria

------------------------------------------------------------
-- Relations First
------------------------------------------------------------

namespace Criteria

open Except

namespace Translator

/- What comes after the relations of a description. -/
def finish
    (t : Translator)
    (d : Description)
    (relations : Option (NameMap Relation)) :
    Except Error Query := do
  let columns ← columns? d.selection
  let keys ← d.sortKeys
  let order ← t.sortTerms keys
  t.applyCursor keys d.cursor
    (d.plainQuery none relations columns order)

variable {t : Translator}
variable {d : Description}

/- Without a filter the relations are what comes first. -/
theorem translateWithin_of_filter_none
    (hFilter : d.filter = none)
    (levels : Nat) :
    t.translateWithin (levels + 1) d =
      relations? (t.translateWithin levels) d.relations >>=
        t.finish d := by
  rw [translateWithin, hFilter]
  rfl

theorem isShallow_finish
    (relations : Option (NameMap Relation)) :
    ErrorsAre Error.IsShallow (t.finish d relations) := by
  refine (isShallow_columns? d.selection).bind
    fun columns _ => ?_
  refine d.isShallow_sortKeys.bind fun keys _ => ?_
  refine (t.isShallow_sortTerms keys).bind fun order _ => ?_
  exact t.isShallow_applyCursor keys d.cursor _

/- A cursor changes nothing about the relations. -/
theorem relations_applyCursor
    {keys : List SortKey}
    {cursor? : Option Json.Members}
    {q r : Query}
    (hApply : t.applyCursor keys cursor? q = .ok r) :
    r.relations = q.relations := by
  cases cursor? with
  | none =>
      cases hApply
      rfl
  | some members =>
      rcases applyCursor_eq_ok_iff.mp hApply with
        ⟨primary, secondary, _, rfl⟩
      rfl

------------------------------------------------------------
-- Another Bound
------------------------------------------------------------

section Rebound

variable {old new : Nat}

/- The relations are translated alike if their queries are. -/
theorem mapError_relation
    {translate other : Description → Except Error Query}
    (hTranslate : ∀ inner : Description,
      inner.filter = none →
        (translate inner).mapError (Error.rebound old new) =
          other inner)
    (member : String × Json) :
    (relation translate member).mapError
        (Error.rebound old new) =
      relation other member := by
  rcases member with ⟨name, value⟩
  cases value with
  | object members =>
      have hRead :
          (Description.ofMembers members).mapError
              (Error.rebound old new) =
            Description.ofMembers members :=
        mapError_eq_self _ fun e hError =>
          (Description.isShallow_ofMembers members e
            hError).rebound_eq old new
      unfold relation
      rw [mapError_bind, hRead]
      congr 1
      funext inner
      cases hFilter : inner.filter with
      | some filter => rfl
      | none =>
          rw [← hTranslate inner hFilter]
          exact mapError_map _ _ _
  | _ => rfl

/-
  Without a filter the bound only counts the levels that are
  left, and it is only read to name it.
-/
theorem mapError_translateWithin
    (hFilter : d.filter = none)
    (levels : Nat) :
    ((t.withMaxDepth old).translateWithin levels d).mapError
        (Error.rebound old new) =
      (t.withMaxDepth new).translateWithin levels d := by
  induction levels generalizing d with
  -- Only where no level is left is the bound named.
  | zero =>
      simp [translateWithin, withMaxDepth, Except.mapError,
        Error.rebound]
  | succ levels ih =>
      have hFinish :
          ∀ relations : Option (NameMap Relation),
            ((t.withMaxDepth old).finish d
                relations).mapError
                (Error.rebound old new) =
              (t.withMaxDepth new).finish d relations :=
        fun relations => mapError_eq_self _ fun e hError =>
          (isShallow_finish relations e hError).rebound_eq
            old new
      have hRelations :
          (relations?
              ((t.withMaxDepth old).translateWithin levels)
              d.relations).mapError
              (Error.rebound old new) =
            relations?
              ((t.withMaxDepth new).translateWithin levels)
              d.relations := by
        cases d.relations with
        | none => rfl
        | some members =>
            unfold relations?
            simp only
            rw [mapError_bind, mapError_mapM]
            simp only [mapError_relation fun inner hInner =>
              ih hInner]
            rfl
      rw [translateWithin_of_filter_none hFilter,
        translateWithin_of_filter_none hFilter,
        mapError_bind, hRelations]
      congr 1
      funext relations
      exact hFinish relations

end Rebound

end Translator

end Criteria
