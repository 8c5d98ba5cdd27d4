import Criteria.Proofs.ConditionValues
import Criteria.Proofs.FilterMeaning

/-
  This file takes filters apart into their leaves.

  A leaf is a field with its content, or a connective with a
  content that is no filter. Whatever connectives stand
  around the leaves and whatever the context, a filter fails
  as the first of its leaves does that fails, and otherwise
  its condition tests what the leaves test, one after another.

  Key definitions include:
    * `Filter.within`
    * `Filter.leaves`
    * `Filter.leafCondition?`

  Main statements:
    * `Filter.within_of_mem_leaves`
    * `Filter.mem_leaves_of_within`
    * `Filter.agree_leaves`
-/

------------------------------------------------------------
-- Leaves
------------------------------------------------------------

namespace Criteria

namespace Filter

mutual

/- The entries of a filter at every depth, outer ones first. -/
def within : Filter → List (Key × Content)
  | ⟨entries⟩ => entriesWithin entries

def entriesWithin :
    List (Key × Content) → List (Key × Content)
  | [] => []
  | (key, content) :: rest =>
      (key, content) ::
        (contentWithin content ++ entriesWithin rest)

def contentWithin : Content → List (Key × Content)
  | .branches items => itemsWithin items
  | .branch item => item.within
  | _ => []

def itemsWithin : List Filter → List (Key × Content)
  | [] => []
  | item :: rest => item.within ++ itemsWithin rest

end

mutual

/- The entries of a filter that hold no filters to go into. -/
def leaves : Filter → List (Key × Content)
  | ⟨entries⟩ => entryLeaves entries

def entryLeaves :
    List (Key × Content) → List (Key × Content)
  | [] => []
  | (key, content) :: rest =>
      contentLeaves key content ++ entryLeaves rest

/- A field is a leaf whatever it holds. -/
def contentLeaves
    (key : Key) : Content → List (Key × Content)
  | .branches items =>
      match key with
      | .connective _ => itemLeaves items
      | .field _ => [(key, .branches items)]
  | .branch item =>
      match key with
      | .connective _ => item.leaves
      | .field _ => [(key, .branch item)]
  | content => [(key, content)]

def itemLeaves : List Filter → List (Key × Content)
  | [] => []
  | item :: rest => item.leaves ++ itemLeaves rest

end

theorem entryLeaves_append
    (entries others : List (Key × Content)) :
    entryLeaves (entries ++ others) =
      entryLeaves entries ++ entryLeaves others := by
  induction entries with
  | nil => rfl
  | cons entry rest ih =>
      rw [List.cons_append, entryLeaves, entryLeaves, ih,
        List.append_assoc]

theorem leaves_eq (f : Filter) :
    f.leaves = entryLeaves f.entries := by
  rcases f with ⟨entries⟩
  rfl

/- Elements are leaves as if they stood beside each other. -/
theorem itemLeaves_eq (items : List Filter) :
    itemLeaves items =
      entryLeaves (items.flatMap entries) := by
  induction items with
  | nil => rfl
  | cons item rest ih =>
      rw [itemLeaves, List.flatMap_cons, entryLeaves_append,
        ih, leaves_eq]

/- A leaf on its own. A connective has no other content. -/
def leafCondition?
    (schema : Schema)
    (leaf : Key × Content) :
    Except Error (Option Condition) :=
  match leaf.1 with
  | .field name =>
      fieldCondition? schema .conjunctive name leaf.2
  | .connective op =>
      .error (.unsupportedShape (.branchContent op))

/- A connective is a leaf where it holds no filter. -/
def IsLeaf : Key × Content → Prop
  | (.connective _, .branches _) => False
  | (.connective _, .branch _) => False
  | _ => True

------------------------------------------------------------
-- Leaves are Entries
------------------------------------------------------------

section Leaves

variable {leaf : Key × Content}

mutual

/- Every leaf is an entry at some depth. -/
theorem within_of_mem_leaves : ∀ f : Filter,
    leaf ∈ f.leaves → leaf ∈ f.within ∧ IsLeaf leaf
  | ⟨entries⟩, hLeaf =>
      within_of_mem_entryLeaves entries hLeaf

theorem within_of_mem_entryLeaves :
    ∀ entries : List (Key × Content),
    leaf ∈ entryLeaves entries →
      leaf ∈ entriesWithin entries ∧ IsLeaf leaf
  | (key, content) :: rest, hLeaf => by
      rw [entryLeaves, List.mem_append] at hLeaf
      rw [entriesWithin, ← List.cons_append,
        List.mem_append]
      rcases hLeaf with hFirst | hRest
      · exact (within_of_mem_contentLeaves key content
          hFirst).imp_left .inl
      · exact (within_of_mem_entryLeaves rest
          hRest).imp_left .inr

theorem within_of_mem_contentLeaves
    (key : Key) :
    ∀ content : Content,
    leaf ∈ contentLeaves key content →
      leaf ∈ (key, content) :: contentWithin content ∧
        IsLeaf leaf
  | .branches items, hLeaf => by
      cases key with
      | field name =>
          cases List.mem_singleton.mp hLeaf
          exact ⟨List.mem_cons_self, trivial⟩
      | connective op =>
          exact (within_of_mem_itemLeaves items
            hLeaf).imp_left (List.mem_cons_of_mem _)
  | .branch item, hLeaf => by
      cases key with
      | field name =>
          cases List.mem_singleton.mp hLeaf
          exact ⟨List.mem_cons_self, trivial⟩
      | connective op =>
          exact (within_of_mem_leaves item
            hLeaf).imp_left (List.mem_cons_of_mem _)
  | .null, hLeaf => by
      cases List.mem_singleton.mp hLeaf
      exact ⟨List.mem_cons_self, by cases key <;> trivial⟩
  | .literal _, hLeaf => by
      cases List.mem_singleton.mp hLeaf
      exact ⟨List.mem_cons_self, by cases key <;> trivial⟩
  | .operators _, hLeaf => by
      cases List.mem_singleton.mp hLeaf
      exact ⟨List.mem_cons_self, by cases key <;> trivial⟩

theorem within_of_mem_itemLeaves : ∀ items : List Filter,
    leaf ∈ itemLeaves items →
      leaf ∈ itemsWithin items ∧ IsLeaf leaf
  | item :: rest, hLeaf => by
      rw [itemLeaves, List.mem_append] at hLeaf
      rw [itemsWithin, List.mem_append]
      rcases hLeaf with hFirst | hRest
      · exact (within_of_mem_leaves item
          hFirst).imp_left .inl
      · exact (within_of_mem_itemLeaves rest
          hRest).imp_left .inr

end

end Leaves

section Entries

variable {leaf : Key × Content}

mutual

/- Entries are leaves, where no leaf holds entries. -/
theorem mem_leaves_of_within : ∀ f : Filter,
    (∀ other ∈ f.leaves, contentWithin other.2 = []) →
    IsLeaf leaf → leaf ∈ f.within → leaf ∈ f.leaves
  | ⟨entries⟩, hFlat, hLeaf, hEntry =>
      mem_entryLeaves_of_within entries hFlat hLeaf hEntry

theorem mem_entryLeaves_of_within :
    ∀ entries : List (Key × Content),
    (∀ other ∈ entryLeaves entries,
      contentWithin other.2 = []) →
    IsLeaf leaf → leaf ∈ entriesWithin entries →
      leaf ∈ entryLeaves entries
  | [], _, _, hEntry => hEntry
  | (key, content) :: rest, hFlat, hLeaf, hEntry => by
      rw [entryLeaves, List.forall_mem_append] at hFlat
      rw [entriesWithin, ← List.cons_append,
        List.mem_append] at hEntry
      rw [entryLeaves, List.mem_append]
      exact hEntry.imp
        (mem_contentLeaves_of_within key content hFlat.1
          hLeaf)
        (mem_entryLeaves_of_within rest hFlat.2 hLeaf)

theorem mem_contentLeaves_of_within
    (key : Key) :
    ∀ content : Content,
    (∀ other ∈ contentLeaves key content,
      contentWithin other.2 = []) →
    IsLeaf leaf →
    leaf ∈ (key, content) :: contentWithin content →
      leaf ∈ contentLeaves key content
  | .branches items, hFlat, hLeaf, hEntry => by
      cases key with
      | field _ =>
          have hNone := hFlat _ List.mem_cons_self
          rwa [hNone] at hEntry
      | connective _ =>
          rcases List.mem_cons.mp hEntry with rfl | hEntry
          · exact hLeaf.elim
          · exact mem_itemLeaves_of_within items hFlat hLeaf
              hEntry
  | .branch item, hFlat, hLeaf, hEntry => by
      cases key with
      | field _ =>
          have hNone := hFlat _ List.mem_cons_self
          rwa [hNone] at hEntry
      | connective _ =>
          rcases List.mem_cons.mp hEntry with rfl | hEntry
          · exact hLeaf.elim
          · exact mem_leaves_of_within item hFlat hLeaf hEntry
  | .null, _, _, hEntry => hEntry
  | .literal _, _, _, hEntry => hEntry
  | .operators _, _, _, hEntry => hEntry

theorem mem_itemLeaves_of_within :
    ∀ items : List Filter,
    (∀ other ∈ itemLeaves items,
      contentWithin other.2 = []) →
    IsLeaf leaf → leaf ∈ itemsWithin items →
      leaf ∈ itemLeaves items
  | [], _, _, hEntry => hEntry
  | item :: rest, hFlat, hLeaf, hEntry => by
      rw [itemLeaves, List.forall_mem_append] at hFlat
      rw [itemsWithin, List.mem_append] at hEntry
      rw [itemLeaves, List.mem_append]
      exact hEntry.imp
        (mem_leaves_of_within item hFlat.1 hLeaf)
        (mem_itemLeaves_of_within rest hFlat.2 hLeaf)

end

end Entries

end Filter

end Criteria

------------------------------------------------------------
-- Conditions of Leaves
------------------------------------------------------------

namespace Criteria

namespace Filter

open Except Condition

theorem tests_connect
    (op : Connective)
    (context : Context)
    (conditions : List Condition) :
    tests (connect op context conditions) =
      conditions.flatMap predicates := by
  cases op with
  | and => exact tests_combine .all conditions
  | or => exact tests_combine .any conditions
  | not =>
      rw [connect, tests_combine, List.flatMap_map]
      apply List.flatMap_congr
      intro c _
      exact predicates_negate c

variable {schema : Schema}

/- Operators beside each other fail alike in every context. -/
theorem agree_fieldCondition?
    (context : Context)
    (name : String)
    (content : Content) :
    Agree (fun c? d? => tests c? = tests d?)
      (fieldCondition? schema context name content)
      (fieldCondition? schema .conjunctive name content) := by
  refine .after _ fun field => ?_
  cases content with
  | operators operators =>
      cases context with
      | disjunctive =>
          rcases operators with ⟨mode, entries⟩
          change Agree _
            (Operators.condition? name field .disjunctive _)
            (Operators.condition? name field .conjunctive _)
          rw [Operators.condition?, Operators.condition?,
            operatorConditions_disjunctive]
          refine .after _ fun conditions => .ok ?_
          rw [tests_combine, tests_combine]
      | conjunctive => exact .refl _ fun _ _ => rfl
      | negated => exact .refl _ fun _ _ => rfl
  | _ => exact .refl _ fun _ _ => rfl

/- What is said first, and then the rest, leaf by leaf. -/
private theorem agree_append
    {first rest : List (Key × Content)}
    {x : Except Error (Option Condition)}
    {y : Except Error (List Condition)}
    (hFirst :
      Agree (fun c? ds => tests c? = ds.flatMap tests) x
        (first.mapM (leafCondition? schema)))
    (hRest :
      Agree
        (fun cs ds => cs.flatMap predicates = ds.flatMap tests)
        y (rest.mapM (leafCondition? schema))) :
    Agree
      (fun cs ds => cs.flatMap predicates = ds.flatMap tests)
      (do
        let c? ← x
        let cs ← y
        return c?.toList ++ cs)
      ((first ++ rest).mapM (leafCondition? schema)) := by
  rw [List.mapM_append]
  refine hFirst.bind fun c? ds hSaid => ?_
  refine hRest.bind fun cs es hOthers => .ok ?_
  rw [List.flatMap_append, List.flatMap_append,
    ← tests_eq_flatMap, hSaid, hOthers]

/- A field is the one leaf of its entry. -/
private theorem agree_field
    (context : Context)
    (name : String)
    (content : Content) :
    Agree (fun c? ds => tests c? = ds.flatMap tests)
      (entryCondition? schema context (.field name) content)
      ([(.field name, content)].mapM
        (leafCondition? schema)) := by
  rw [entryCondition?_field, List.mapM_cons,
    ← bind_pure (fieldCondition? schema context name content)]
  refine (agree_fieldCondition? context name content).bind
    fun c? d? hTests => .ok ?_
  exact hTests.trans (List.flatMap_singleton tests d?).symm

mutual

/-
  A filter fails as the first of its leaves that fails, and
  tests otherwise what they test.
-/
theorem agree_leaves
    (context : Context) :
    ∀ f : Filter,
    Agree (fun c? ds => tests c? = ds.flatMap tests)
      (f.condition? schema context)
      (f.leaves.mapM (leafCondition? schema))
  | ⟨entries⟩ => by
      rw [condition?, leaves, ← bind_pure (List.mapM _ _)]
      refine (agree_entryLeaves context entries).bind
        fun cs ds hTests => .ok ?_
      rw [tests_wrap, hTests]

theorem agree_entryLeaves
    (context : Context) :
    ∀ entries : List (Key × Content),
    Agree
      (fun cs ds => cs.flatMap predicates = ds.flatMap tests)
      (entryConditions schema context entries)
      ((entryLeaves entries).mapM (leafCondition? schema))
  | [] => .ok rfl
  | (key, content) :: rest => by
      rw [entryConditions, entryLeaves]
      exact agree_append
        (agree_contentLeaves context key content)
        (agree_entryLeaves context rest)

theorem agree_contentLeaves
    (context : Context)
    (key : Key) :
    ∀ content : Content,
    Agree (fun c? ds => tests c? = ds.flatMap tests)
      (entryCondition? schema context key content)
      ((contentLeaves key content).mapM
        (leafCondition? schema))
  | .branches items => by
      cases key with
      | field name => exact agree_field context name _
      | connective op =>
          rw [entryCondition?, contentLeaves,
            ← bind_pure (List.mapM _ _)]
          refine (agree_itemLeaves items).bind
            fun cs ds hTests => .ok ?_
          rw [tests_connect, hTests]
  | .branch item => by
      cases key with
      | field name => exact agree_field context name _
      | connective op =>
          have hConnected : ∀ op : Connective,
              Agree
                (fun c? ds => tests c? = ds.flatMap tests)
                (do
                  let c? ← item.condition? schema .conjunctive
                  return connect op context c?.toList)
                (item.leaves.mapM (leafCondition? schema)) := by
            intro op
            rw [← bind_pure (List.mapM _ _)]
            refine (agree_leaves .conjunctive item).bind
              fun c? ds hTests => .ok ?_
            rw [tests_connect, ← tests_eq_flatMap, hTests]
          rw [contentLeaves]
          cases op with
          | or => exact agree_leaves .disjunctive item
          | and => exact hConnected .and
          | not => exact hConnected .not
  | .null => by
      cases key with
      | field name => exact agree_field context name _
      | connective op => exact .error _
  | .literal v => by
      cases key with
      | field name => exact agree_field context name _
      | connective op => exact .error _
  | .operators operators => by
      cases key with
      | field name => exact agree_field context name _
      | connective op => exact .error _

theorem agree_itemLeaves :
    ∀ items : List Filter,
    Agree
      (fun cs ds => cs.flatMap predicates = ds.flatMap tests)
      (itemConditions schema items)
      ((itemLeaves items).mapM (leafCondition? schema))
  | [] => .ok rfl
  | item :: rest => by
      rw [itemConditions, itemLeaves]
      exact agree_append (agree_leaves .conjunctive item)
        (agree_itemLeaves rest)

end

end Filter

end Criteria
