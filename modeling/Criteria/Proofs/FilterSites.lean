import Criteria.Proofs.FilterLeaves
import Criteria.Proofs.FilterReordering
import Criteria.Translation

/-
  This file proves what a filter tests around an operator
  object in it.

  The object stands at a site. Whatever object it is, a filter
  that is accepted tests the same before the site and after
  it, and in between what the operators of the object test.
  They are compiled for the field of the site, in the mode
  that the objects around give to it, and in the context that
  each `not` around it flips.

  Key definitions include:
    * `Json.OperatorSite`
    * `Json.FilterSite`
    * `Filter.Operators.compile`
    * `Condition.testsUnderNot`

  Main statements:
    * `Filter.Operators.exists_compile_amid`
    * `Json.OperatorSite.exists_around`
    * `Json.FilterSite.exists_leaf`
    * `Translator.exists_around`
-/

------------------------------------------------------------
-- Objects under Not
------------------------------------------------------------

namespace Criteria

namespace Condition

/- What an object under `not` says, or a truth if nothing. -/
def underNot
    (kind : Junction)
    (conditions : List Condition) : Condition :=
  (combine kind conditions).getD (.single (.constant true))

def testsUnderNot : List Condition → List Predicate
  | [] => [.constant true]
  | conditions => conditions.flatMap predicates

theorem testsUnderNot_of_ne_nil
    {conditions : List Condition}
    (hSome : conditions ≠ []) :
    testsUnderNot conditions =
      conditions.flatMap predicates := by
  cases conditions with
  | nil => exact absurd rfl hSome
  | cons c rest => rfl

theorem predicates_underNot
    (kind : Junction)
    (conditions : List Condition) :
    (underNot kind conditions).predicates =
      testsUnderNot conditions := by
  match conditions with
  | [] => rfl
  | [c] => exact (List.flatMap_singleton predicates c).symm
  | c :: d :: rest =>
      exact predicates_join kind (c :: d :: rest)

end Condition

------------------------------------------------------------
-- Sites of Operator Objects
------------------------------------------------------------

namespace Json

open Criteria.Filter

/- Where an operator object stands in another one. -/
inductive OperatorSite where
  | here
  | nested
      (before : Members)
      (inner : OperatorSite)
      (after : Members)

namespace OperatorSite

/- The outermost object, with the one at the site. -/
def fill (members : Members) : OperatorSite → Members
  | .here => members
  | .nested before inner after =>
      before ++
        (Operator.not.keyword,
          .object (inner.fill members)) :: after

/- The number of objects around the one at the site. -/
def depth : OperatorSite → Nat
  | .here => 0
  | .nested _ inner _ => inner.depth + 1

/- The mode that the object at the site inherits. -/
def around
    (inherited : MatchMode) : OperatorSite → MatchMode
  | .here => inherited
  | .nested before inner after =>
      match Operators.modeIn inherited (before ++ after) with
      | .ok mode => inner.around mode
      | .error _ => inherited

/- The context of the object at the site. -/
def contextIn
    (context : Context) : OperatorSite → Context
  | .here => context
  | .nested _ inner _ => inner.contextIn context.flipped

/-
  What the object at the site tests, where its operators say
  these conditions. Under `not` it is a truth if they are none.
-/
def tested
    (conditions : List Condition) :
    OperatorSite → List Predicate
  | .here => conditions.flatMap Condition.predicates
  | .nested _ _ _ => Condition.testsUnderNot conditions

end OperatorSite

/- Where an operator object stands in a filter. -/
inductive FilterSite where
  | field
      (before : Members)
      (name : String)
      (hField : IsFieldName name)
      (site : OperatorSite)
      (after : Members)
  | branch
      (before : Members)
      (op : Connective)
      (inner : FilterSite)
      (after : Members)
  | branches
      (before : Members)
      (op : Connective)
      (earlier : List Json)
      (inner : FilterSite)
      (later : List Json)
      (after : Members)

namespace FilterSite

/- The filter, with the object at the site. -/
def fill (members : Members) : FilterSite → Members
  | .field before name _ site after =>
      before ++ (name, .object (site.fill members)) :: after
  | .branch before op inner after =>
      before ++
        (op.word, .object (inner.fill members)) :: after
  | .branches before op earlier inner later after =>
      before ++
        (op.word, .array (earlier ++
          .object (inner.fill members) :: later)) :: after

/- The field that the object at the site is about. -/
def name : FilterSite → String
  | .field _ name _ _ _ => name
  | .branch _ _ inner _ => inner.name
  | .branches _ _ _ inner _ _ => inner.name

/- The site among the operators of the field. -/
def operators : FilterSite → OperatorSite
  | .field _ _ _ site _ => site
  | .branch _ _ inner _ => inner.operators
  | .branches _ _ _ inner _ _ => inner.operators

/- The number of filters around the operators of the field. -/
def filters : FilterSite → Nat
  | .field _ _ _ _ _ => 1
  | .branch _ _ inner _ => inner.filters + 1
  | .branches _ _ _ inner _ _ => inner.filters + 1

/- The number of objects around the one at the site. -/
def depth (site : FilterSite) : Nat :=
  site.filters + site.operators.depth

/- The mode that the object at the site inherits. -/
def around (site : FilterSite) : MatchMode :=
  site.operators.around .sensitive

/-
  The context of the object at the site, which each `not`
  around it flips. Alternatives are compiled like others.
-/
def context (site : FilterSite) : Context :=
  site.operators.contextIn .conjunctive

/- What the object tests where its operators say these. -/
def tested
    (site : FilterSite)
    (conditions : List Condition) : List Predicate :=
  site.operators.tested conditions

end FilterSite

/- An object under `not` gives no mode to the one around. -/
theorem modeIn_nested
    (inherited : MatchMode)
    (before inner after : Members) :
    Operators.modeIn inherited
        (before ++
          (Operator.not.keyword, .object inner) :: after) =
      Operators.modeIn inherited (before ++ after) := by
  unfold Operators.modeIn
  rw [List.lookup_append, List.lookup_append,
    NameMap.lookup_cons_eq_if, if_neg (by decide)]

end Json

------------------------------------------------------------
-- Conditions of Operators
------------------------------------------------------------

namespace Filter

open Except Condition

variable (name : String)
variable (field : Field)

theorem Operators.condition?_eq_map
    (context : Context)
    (operators : Operators) :
    operators.condition? name field context =
      combine context.operatorJunction <$>
        operatorConditions name field operators.mode context
          operators.entries := by
  rcases operators with ⟨mode, entries⟩
  rw [Operators.condition?]
  cases operatorConditions name field mode context entries <;>
    rfl

/- An object under `not` gives one condition of its own. -/
theorem Operand.condition_nested
    (mode : MatchMode)
    (context : Context)
    (operators : Operators) :
    Operand.condition name field mode context .not
        (.nested operators) =
      underNot context.flipped.operatorJunction <$>
        operatorConditions name field operators.mode
          context.flipped operators.entries := by
  rw [Operand.condition, Operators.condition?_eq_map]
  cases operatorConditions name field operators.mode
    context.flipped operators.entries <;> rfl

/- The conditions of the operators of an object, in order. -/
def Operators.compile
    (most levels : Nat)
    (name : String)
    (field : Field)
    (context : Context)
    (inherited : MatchMode)
    (members : Json.Members) :
    Except Error (List Condition) := do
  let operators ← ofMembers most levels inherited members
  operatorConditions name field operators.mode context
    operators.entries

/- The operators of an object are read in its mode. -/
theorem ofMembers_of_modeIn
    (most levels : Nat)
    {inherited mode : MatchMode}
    {members : Json.Members}
    (hMode :
      Operators.modeIn inherited members = .ok mode) :
    Operators.ofMembers most (levels + 1) inherited members =
      Operators.mk mode <$>
        (Operators.operatorMembers members).mapM
          (Operators.entryOf
            (Operators.ofMembers most levels mode)) := by
  simp only [Operators.ofMembers, hMode, bind, Except.bind]
  cases (Operators.operatorMembers members).mapM
    (Operators.entryOf
      (Operators.ofMembers most levels mode)) <;> rfl

/- An object under `not` is one operator among others. -/
theorem operatorMembers_around
    (before inner after : Json.Members) :
    Operators.operatorMembers
        (before ++
          (Operator.not.keyword, .object inner) :: after) =
      Operators.operatorMembers before ++
        (Operator.not.keyword, .object inner) ::
          Operators.operatorMembers after := by
  have hKey : Operator.not.keyword ≠ MatchMode.key := by
    decide
  unfold Operators.operatorMembers
  rw [List.filter_append, List.filter_cons,
    if_pos (decide_eq_true hKey)]

/-
  Whatever object stands under `not`, the operators around it
  say the same before and after what it says.
-/
theorem Operators.exists_compile_nested
    (most levels : Nat)
    (context : Context)
    {inherited mode : MatchMode}
    (before after : Json.Members)
    (hMode :
      modeIn inherited (before ++ after) = .ok mode) :
    ∃ first rest, ∀ members outer,
      compile most (levels + 1) name field context inherited
          (before ++
            (Operator.not.keyword, .object members) ::
              after) =
        .ok outer →
      ∃ conditions,
        compile most levels name field context.flipped mode
            members =
          .ok conditions ∧
        outer =
          first ++
            underNot context.flipped.operatorJunction
              conditions :: rest := by
  rcases exists_mapM_amid
      (entryOf (ofMembers most levels mode))
      (operatorMembers before) (operatorMembers after) with
    ⟨earlier, later, hEntries⟩
  rcases exists_mapM_amid
      (fun entry : Operator × Operand =>
        entry.2.condition name field mode context entry.1)
      earlier later with
    ⟨first, rest, hConditions⟩
  refine ⟨first, rest, ?_⟩
  intro members outer hOuter
  rw [compile,
    ofMembers_of_modeIn most levels
      ((Json.modeIn_nested _ _ _ _).trans hMode),
    bind_eq_ok_iff] at hOuter
  rcases hOuter with ⟨_, hRead, hAll⟩
  rcases map_eq_ok_iff.mp hRead with ⟨entries, hMembers, rfl⟩
  rw [operatorMembers_around] at hMembers
  rcases hEntries _ _ hMembers with ⟨entry, hEntry, rfl⟩
  rw [operatorConditions_eq_mapM] at hAll
  rcases hConditions _ _ hAll with ⟨c, hCondition, rfl⟩
  rw [entryOf_nested, map_eq_ok_iff] at hEntry
  rcases hEntry with ⟨operators, hOperators, rfl⟩
  rw [Operand.condition_nested, map_eq_ok_iff] at hCondition
  rcases hCondition with ⟨conditions, hInner, rfl⟩
  refine ⟨conditions, ?_, rfl⟩
  exact bind_eq_ok_iff.mpr ⟨operators, hOperators, hInner⟩

/- The same where the mode or the levels may not be there. -/
theorem Operators.exists_compile_amid
    (most levels : Nat)
    (context : Context)
    (inherited : MatchMode)
    (before after : Json.Members) :
    ∃ mode first rest, ∀ members outer,
      compile most levels name field context inherited
          (before ++
            (Operator.not.keyword, .object members) ::
              after) =
        .ok outer →
      modeIn inherited (before ++ after) = .ok mode ∧
      ∃ conditions,
        compile most (levels - 1) name field context.flipped
            mode members =
          .ok conditions ∧
        outer =
          first ++
            underNot context.flipped.operatorJunction
              conditions :: rest := by
  cases levels with
  | zero =>
      refine ⟨inherited, [], [], fun _ _ hOuter => ?_⟩
      cases hOuter
  | succ levels =>
      cases hMode : modeIn inherited (before ++ after) with
      | error e =>
          refine ⟨inherited, [], [],
            fun members outer hOuter => ?_⟩
          rw [compile, ofMembers, Json.modeIn_nested, hMode]
            at hOuter
          cases hOuter
      | ok mode =>
          rcases exists_compile_nested name field most levels
              context before after hMode with
            ⟨first, rest, hNested⟩
          exact ⟨mode, first, rest, fun members outer hOuter =>
            ⟨rfl, hNested members outer hOuter⟩⟩

end Filter

------------------------------------------------------------
-- Around a Site of Operators
------------------------------------------------------------

namespace Json

open Except Criteria.Filter Condition

variable (most : Nat)
variable (name : String)
variable (field : Field)

/-
  Under `not`, too, the same is tested around every object at
  a site. The induction is on the objects around it.
-/
theorem OperatorSite.exists_testsUnderNot
    (site : OperatorSite) :
    ∀ (levels : Nat)
      (context : Context)
      (inherited : MatchMode),
    ∃ before after, ∀ members outer,
      Operators.compile most levels name field context
          inherited (site.fill members) =
        .ok outer →
      ∃ conditions,
        Operators.compile most (levels - site.depth) name
            field (site.contextIn context)
            (site.around inherited) members =
          .ok conditions ∧
        testsUnderNot outer =
          before ++ testsUnderNot conditions ++ after ∧
        (site = .here ∨ outer ≠ []) := by
  induction site with
  | here =>
      intro levels context inherited
      refine ⟨[], [], fun members outer hOuter =>
        ⟨outer, hOuter, ?_, .inl rfl⟩⟩
      rw [List.nil_append, List.append_nil]
  | nested before inner after ih =>
      intro levels context inherited
      rcases Operators.exists_compile_amid name field most
          levels context inherited before after with
        ⟨mode, first, rest, hNested⟩
      rcases ih (levels - 1) context.flipped mode with
        ⟨earlier, later, hInner⟩
      refine ⟨first.flatMap predicates ++ earlier,
        later ++ rest.flatMap predicates, ?_⟩
      intro members outer hOuter
      rcases hNested _ _ hOuter with
        ⟨hMode, middle, hMiddle, rfl⟩
      rcases hInner members middle hMiddle with
        ⟨conditions, hCompiled, hTests, _⟩
      have hSome :
          first ++
              underNot context.flipped.operatorJunction
                middle :: rest ≠ [] := by
        simp
      refine ⟨conditions, ?_, ?_, .inr hSome⟩
      · rw [depth, Nat.add_comm, ← Nat.sub_sub, contextIn,
          around, hMode]
        exact hCompiled
      · rw [testsUnderNot_of_ne_nil hSome,
          List.flatMap_append, List.flatMap_cons,
          predicates_underNot, hTests]
        simp only [List.append_assoc]

/- The same is tested around every object at a site. -/
theorem OperatorSite.exists_around
    (site : OperatorSite)
    (levels : Nat)
    (context : Context)
    (inherited : MatchMode) :
    ∃ before after, ∀ members outer,
      Operators.compile most levels name field context
          inherited (site.fill members) =
        .ok outer →
      ∃ conditions,
        Operators.compile most (levels - site.depth) name
            field (site.contextIn context)
            (site.around inherited) members =
          .ok conditions ∧
        outer.flatMap predicates =
          before ++ site.tested conditions ++ after := by
  cases site with
  | here =>
      refine ⟨[], [], fun members outer hOuter =>
        ⟨outer, hOuter, ?_⟩⟩
      rw [List.nil_append, List.append_nil]
      rfl
  | nested before inner after =>
      rcases exists_testsUnderNot most name field
          (.nested before inner after) levels context
          inherited with
        ⟨first, rest, hAround⟩
      refine ⟨first, rest, fun members outer hOuter => ?_⟩
      rcases hAround members outer hOuter with
        ⟨conditions, hCompiled, hTests, hNested⟩
      refine ⟨conditions, hCompiled, ?_⟩
      rcases hNested with hHere | hSome
      · cases hHere
      · rw [← testsUnderNot_of_ne_nil hSome]
        exact hTests

end Json

------------------------------------------------------------
-- Around a Site of a Filter
------------------------------------------------------------

namespace Filter

open Except

/- What is around one member has the same leaves for any. -/
theorem exists_entry_amid
    (most levels : Nat)
    (before after : Json.Members) :
    ∃ first rest, ∀ member f,
      ofMembers most levels (before ++ member :: after) =
        .ok f →
      ∃ entry,
        entryOf
            (Operators.ofMembers most (levels - 1) .sensitive)
            (ofMembers most (levels - 1)) member =
          .ok entry ∧
        f.leaves =
          first ++ contentLeaves entry.1 entry.2 ++ rest := by
  rcases exists_mapM_amid
      (entryOf
        (Operators.ofMembers most (levels - 1) .sensitive)
        (ofMembers most (levels - 1)))
      before after with
    ⟨first, rest, hEntries⟩
  refine ⟨entryLeaves first, entryLeaves rest, ?_⟩
  intro member f hRead
  cases levels with
  | zero => cases hRead
  | succ levels =>
      rw [ofMembers_succ_eq_ok_iff] at hRead
      rcases hEntries _ _ hRead with ⟨entry, hEntry, hAll⟩
      refine ⟨entry, hEntry, ?_⟩
      rw [leaves_eq, hAll, entryLeaves_append, entryLeaves,
        List.append_assoc]

theorem itemLeaves_amid
    (first rest : List Filter)
    (f : Filter) :
    itemLeaves (first ++ f :: rest) =
      itemLeaves first ++ f.leaves ++ itemLeaves rest := by
  rw [itemLeaves_eq, List.flatMap_append, List.flatMap_cons,
    entryLeaves_append, entryLeaves_append, ← itemLeaves_eq,
    ← itemLeaves_eq, ← leaves_eq, List.append_assoc]

end Filter

namespace Json

open Except Criteria.Filter Condition

/-
  A filter has the same leaves around every object at a site.
  The induction is on the filters around it.
-/
theorem FilterSite.exists_leaf
    (most : Nat)
    (site : FilterSite) :
    ∀ levels : Nat,
    ∃ before after, ∀ members f,
      Filter.ofMembers most levels (site.fill members) =
          .ok f →
        ∃ operators,
          Operators.ofMembers most (levels - site.filters)
              .sensitive (site.operators.fill members) =
            .ok operators ∧
          f.leaves =
            before ++
              [(.field site.name, .operators operators)] ++
                after := by
  induction site with
  | field before name hField site after =>
      intro levels
      rcases exists_entry_amid most levels before after with
        ⟨first, rest, hEntries⟩
      refine ⟨first, rest, ?_⟩
      intro members f hRead
      rcases hEntries _ f hRead with ⟨_, hEntry, hLeaves⟩
      rw [entryOf_field _ _ hField, map_eq_ok_iff] at hEntry
      rcases hEntry with ⟨_, hContent, rfl⟩
      rcases map_eq_ok_iff.mp hContent with
        ⟨operators, hOperators, rfl⟩
      exact ⟨operators, hOperators, hLeaves⟩
  | branch before op inner after ih =>
      intro levels
      rcases exists_entry_amid most levels before after with
        ⟨first, rest, hEntries⟩
      rcases ih (levels - 1) with ⟨earlier, later, hInner⟩
      refine ⟨first ++ earlier, later ++ rest, ?_⟩
      intro members f hRead
      rcases hEntries _ f hRead with ⟨_, hEntry, hLeaves⟩
      rw [entryOf_connective, map_eq_ok_iff] at hEntry
      rcases hEntry with ⟨_, hContent, rfl⟩
      rcases map_eq_ok_iff.mp hContent with ⟨g, hFilter, rfl⟩
      rcases hInner members g hFilter with
        ⟨operators, hOperators, hOwn⟩
      refine ⟨operators, ?_, ?_⟩
      · rw [filters, Nat.add_comm, ← Nat.sub_sub]
        exact hOperators
      · rw [hLeaves, contentLeaves, hOwn]
        simp only [List.append_assoc]
        rfl
  | branches before op earlier inner later after ih =>
      intro levels
      rcases exists_entry_amid most levels before after with
        ⟨first, rest, hEntries⟩
      rcases exists_mapM_amid
          (element (Filter.ofMembers most (levels - 1)) op)
          earlier later with
        ⟨items, others, hItems⟩
      rcases ih (levels - 1) with ⟨front, back, hInner⟩
      refine ⟨first ++ itemLeaves items ++ front,
        back ++ itemLeaves others ++ rest, ?_⟩
      intro members f hRead
      rcases hEntries _ f hRead with ⟨_, hEntry, hLeaves⟩
      rw [entryOf_connective, map_eq_ok_iff] at hEntry
      rcases hEntry with ⟨_, hContent, rfl⟩
      rcases map_eq_ok_iff.mp hContent with
        ⟨_, hElements, rfl⟩
      rcases hItems _ _ hElements with ⟨g, hFilter, rfl⟩
      rcases hInner members g hFilter with
        ⟨operators, hOperators, hOwn⟩
      refine ⟨operators, ?_, ?_⟩
      · rw [filters, Nat.add_comm, ← Nat.sub_sub]
        exact hOperators
      · rw [hLeaves, contentLeaves, itemLeaves_amid, hOwn]
        simp only [List.append_assoc]
        rfl

end Json

namespace Translator

open Except Json Criteria.Filter Condition

variable (t : Translator)
variable (site : FilterSite)

/-
  The operators of a field are tested between what the other
  leaves test.
-/
theorem exists_operators_amid :
    ∃ before after, ∀ members c?,
      t.filterCondition? (some (site.fill members)) =
          .ok c? →
        ∃ field operators d?,
          t.schema.find? site.name = some field ∧
          Operators.ofMembers t.settings.maxDepth
              (t.settings.maxDepth - site.filters)
              .sensitive (site.operators.fill members) =
            .ok operators ∧
          operators.condition? site.name field .conjunctive =
            .ok d? ∧
          tests c? = before ++ tests d? ++ after := by
  rcases site.exists_leaf t.settings.maxDepth
      t.settings.maxDepth with
    ⟨earlier, later, hLeaf⟩
  rcases exists_mapM_amid (leafCondition? t.schema) earlier
      later with
    ⟨first, rest, hLeaves⟩
  refine ⟨first.flatMap tests, rest.flatMap tests, ?_⟩
  intro members c? hCondition
  rcases bind_eq_ok_iff.mp hCondition with
    ⟨f, hRead, hCompiled⟩
  rcases hLeaf members f hRead with
    ⟨operators, hOperators, hAll⟩
  have hAgree := @agree_leaves t.schema .conjunctive f
  rw [hCompiled, hAll, List.append_assoc] at hAgree
  rcases hAgree.exists_ok with ⟨ds, hSaid, hTests⟩
  rcases hLeaves _ _ hSaid with ⟨d?, hOwn, rfl⟩
  rcases bind_eq_ok_iff.mp hOwn with ⟨field, hField, hDone⟩
  refine ⟨field, operators, d?, ?_, hOperators, hDone, ?_⟩
  · exact (t.schema.resolve_eq_ok_iff _ _).mp hField
  · rw [hTests, List.flatMap_append, List.flatMap_cons,
      List.append_assoc]

/- The conditions of the operators of an object at a site. -/
def compileAt
    (field : Field)
    (members : Members) : Except Error (List Condition) :=
  Operators.compile t.settings.maxDepth
    (t.settings.maxDepth - site.depth) site.name field
    site.context site.around members

/- The same is tested around every object at a site. -/
theorem exists_around :
    ∃ before after, ∀ members c?,
      t.filterCondition? (some (site.fill members)) =
          .ok c? →
        ∃ field conditions,
          t.schema.find? site.name = some field ∧
          t.compileAt site field members = .ok conditions ∧
          tests c? =
            before ++ site.tested conditions ++ after := by
  rcases t.exists_operators_amid site with
    ⟨first, rest, hOperators⟩
  cases hFound : t.schema.find? site.name with
  | none =>
      refine ⟨[], [], fun members c? hCondition => ?_⟩
      rcases hOperators members c? hCondition with
        ⟨field, _, _, hField, _⟩
      rw [hFound] at hField
      cases hField
  | some field =>
      rcases site.operators.exists_around
          t.settings.maxDepth site.name field
          (t.settings.maxDepth - site.filters) .conjunctive
          .sensitive with
        ⟨earlier, later, hObject⟩
      refine ⟨first ++ earlier, later ++ rest, ?_⟩
      intro members c? hCondition
      rcases hOperators members c? hCondition with
        ⟨other, operators, d?, hField, hRead, hSaid, hTests⟩
      cases hFound.symm.trans hField
      rw [Operators.condition?_eq_map, map_eq_ok_iff]
        at hSaid
      rcases hSaid with ⟨outer, hOuter, rfl⟩
      rcases hObject members outer
          (bind_eq_ok_iff.mpr ⟨operators, hRead, hOuter⟩) with
        ⟨conditions, hCompiled, hOwn⟩
      refine ⟨field, conditions, rfl, ?_, ?_⟩
      · rw [compileAt, FilterSite.depth, ← Nat.sub_sub]
        exact hCompiled
      · rw [hTests, tests_combine, hOwn]
        simp only [List.append_assoc]
        rfl

end Translator

end Criteria
