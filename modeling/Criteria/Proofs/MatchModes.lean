import Criteria.Proofs.FilterLeaves

/-
  This file compares conditions that differ in how patterns
  treat letter case, and in nothing else.

  Such conditions have the same form and bind the same
  values. Joining, negating and connecting them with other
  conditions keeps it that way.

  Key definitions include:
    * `Condition.unmoded`
    * `Condition.SameButModes`

  Main statements:
    * `Condition.SameButModes.bound_eq`
    * `Condition.sameButModes_combine`
    * `Condition.sameButModes_connect`
-/

------------------------------------------------------------
-- Conditions without Modes
------------------------------------------------------------

namespace Criteria

/- The predicate with its pattern matched in one mode. -/
def Predicate.unmoded : Predicate → Predicate
  | .like column negated _ pattern =>
      .like column negated .sensitive pattern
  | p => p

theorem Predicate.values_unmoded (p : Predicate) :
    p.unmoded.values = p.values := by
  cases p <;> rfl

namespace Condition

def unmoded (c : Condition) : Condition :=
  c.mapPredicates Predicate.unmoded

theorem tests_unmoded (c? : Option Condition) :
    tests (c?.map unmoded) =
      (tests c?).map Predicate.unmoded := by
  cases c? with
  | none => rfl
  | some c => exact predicates_mapPredicates _ c

theorem unmoded_connect
    (op : Connective)
    (context : Context)
    (cs : List Condition) :
    (Filter.connect op context cs).map unmoded =
      Filter.connect op context (cs.map unmoded) := by
  cases op with
  | and => exact map_combine _ .all cs
  | or => exact map_combine _ .any cs
  | not =>
      rw [Filter.connect, Filter.connect]
      refine (map_combine _ _ _).trans ?_
      rw [List.map_map, List.map_map]
      congr 1
      exact List.map_congr_left fun c _ =>
        mapPredicates_negate _ c

------------------------------------------------------------
-- Conditions that Differ in Modes
------------------------------------------------------------

/- Conditions that are the same but for modes, if any. -/
def SameButModes (c? d? : Option Condition) : Prop :=
  c?.map unmoded = d?.map unmoded

variable {c? d? : Option Condition}
variable {cs ds : List Condition}

/- The mode of a pattern is no value of a condition. -/
theorem SameButModes.bound_eq
    (hSame : SameButModes c? d?) : bound c? = bound d? := by
  have hBound : ∀ c? : Option Condition,
      bound c? =
        (tests (c?.map unmoded)).flatMap
          Predicate.values := by
    intro c?
    rw [bound_eq_tests, tests_unmoded, List.flatMap_map]
    apply List.flatMap_congr
    intro p _
    exact p.values_unmoded.symm
  rw [hBound c?, hSame, ← hBound d?]

/- Also where none is taken for a condition of its own. -/
theorem SameButModes.unmoded_getD
    (hSame : SameButModes c? d?)
    (other : Condition) :
    (c?.getD other).unmoded = (d?.getD other).unmoded := by
  have hMapped :
      (c?.map unmoded).getD other.unmoded =
        (d?.map unmoded).getD other.unmoded := by
    rw [hSame]
  rwa [Option.getD_map, Option.getD_map] at hMapped

/- Conditions beside them do not matter. -/
theorem SameButModes.map_unmoded_amid
    (hSame : SameButModes c? d?)
    (before after : List (Option Condition)) :
    ((before ++ c? :: after).flatMap Option.toList).map
        unmoded =
      ((before ++ d? :: after).flatMap Option.toList).map
        unmoded := by
  have hList :
      c?.toList.map unmoded = d?.toList.map unmoded := by
    rw [← Option.toList_map, hSame, Option.toList_map]
  simp only [List.flatMap_append, List.flatMap_cons,
    List.map_append, hList]

/- What keeps the form of conditions keeps them the same. -/
theorem SameButModes.of_map
    {build : List Condition → Option Condition}
    (hForm : ∀ cs,
      (build cs).map unmoded = build (cs.map unmoded))
    (hSame : cs.map unmoded = ds.map unmoded) :
    SameButModes (build cs) (build ds) := by
  rw [SameButModes, hForm, hForm, hSame]

theorem sameButModes_combine
    (kind : Junction)
    (hSame : cs.map unmoded = ds.map unmoded) :
    SameButModes (combine kind cs) (combine kind ds) :=
  .of_map (map_combine _ kind) hSame

theorem sameButModes_wrap
    (kind : Junction)
    (hSame : cs.map unmoded = ds.map unmoded) :
    SameButModes (wrap kind cs) (wrap kind ds) :=
  .of_map (map_wrap _ kind) hSame

theorem sameButModes_connect
    (op : Connective)
    (context : Context)
    (hSame : cs.map unmoded = ds.map unmoded) :
    SameButModes (Filter.connect op context cs)
      (Filter.connect op context ds) :=
  .of_map (unmoded_connect op context) hSame

end Condition

end Criteria
