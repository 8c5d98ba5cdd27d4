import Criteria.Proofs.FilterRenaming
import Criteria.Proofs.TranslationSteps
import Mathlib.Data.List.Sort

/-
  This file proves that the names of fields leave no trace in
  a statement.

  A description is renamed together with the schema and the
  tiebreaker. It is then translated where it was before, and
  the query asks for the same columns, values and directions
  under the new names. Selected columns are sorted by name,
  so that a statement stays the same as long as the selected
  names keep their order.

  Key definitions include:
    * `Description.rename`
    * `Translator.rename`
    * `Query.Renames`

  Main statements:
    * `Description.follows_ofMembers`
    * `Translator.follows_cursorKeys`
    * `Translator.follows_translate`
    * `Query.statement_of_renames`
-/

------------------------------------------------------------
-- Renamed Descriptions
------------------------------------------------------------

namespace Criteria

variable (ρ : Renaming)

namespace Json

/- An object whose members stand under names of fields. -/
def renameObject : Json → Json
  | .object members => .object (ρ.entries members)
  | value => value

/- One such object, or several. -/
def renameOrder : Json → Json
  | .array items => .array (items.map (renameObject ρ))
  | value => value.renameObject ρ

mutual

/- A description, and those of its relations. -/
def renameDescription : Json → Json
  | .object members => .object (renameMembers members)
  | value => value

def renameMembers :
    List (String × Json) → List (String × Json)
  | [] => []
  | (key, value) :: rest =>
      (key,
        match Description.Member.ofName? key with
        | some .filter => value.renameFilter ρ
        | some .relations => value.renameRelations
        | some .selection => value.renameObject ρ
        | some .orderBy => value.renameOrder ρ
        | some .cursor => value.renameObject ρ
        | _ => value) :: renameMembers rest

/- The names of relations are not those of fields. -/
def renameRelations : Json → Json
  | .object members => .object (renameIncluded members)
  | value => value

def renameIncluded :
    List (String × Json) → List (String × Json)
  | [] => []
  | (name, value) :: rest =>
      (name, value.renameDescription) :: renameIncluded rest

end

end Json

def OrderBy.rename : OrderBy → OrderBy
  | .single members => .single (ρ.entries members)
  | .sequence items => .sequence (items.map ρ.entries)

def Description.rename (d : Description) : Description :=
  { filter := d.filter.map (Json.renameEntries ρ)
    relations := d.relations.map (Json.renameIncluded ρ)
    selection := d.selection.map ρ.entries
    take := d.take
    skip := d.skip
    orderBy := d.orderBy.map (OrderBy.rename ρ)
    cursor := d.cursor.map ρ.entries }

/- The translator that knows the fields by the new names. -/
def Translator.rename (t : Translator) : Translator :=
  { schema := t.schema.rename ρ
    settings :=
      { t.settings with
        tiebreaker := ρ.apply t.settings.tiebreaker } }

def SortKey.rename (key : SortKey) : SortKey :=
  { key with field := ρ.apply key.field }

def SortTerm.rename (term : SortTerm) : SortTerm :=
  { term with field := ρ.apply term.field }

def Cursor.Key.rename (key : Key) : Key :=
  { key with field := ρ.apply key.field }

/- The same entries as one map, with old and new names. -/
def NameMap.Renames
    {α : Type}
    (map other : NameMap α) : Prop :=
  ∃ entries, map = ofList entries ∧
    other = ofList (ρ.entries entries)

/- The same query on the table, but for names of fields. -/
structure Query.Renames (q r : Query) : Prop where
  condition : r.condition = q.condition
  columns :
    Option.Rel (NameMap.Renames ρ) q.columns r.columns
  limit : r.limit = q.limit
  offset : r.offset = q.offset
  order : r.order = q.order.map (SortTerm.rename ρ)

end Criteria

------------------------------------------------------------
-- Reading Renamed Descriptions
------------------------------------------------------------

namespace Criteria

open Except

variable {ρ : Renaming}

namespace Description

/- The value of a member of a description. -/
def renameMember
    (ρ : Renaming)
    (member : Member)
    (value : Json) : Json :=
  match member with
  | .filter => value.renameFilter ρ
  | .relations => value.renameRelations ρ
  | .selection => value.renameObject ρ
  | .take => value
  | .skip => value
  | .orderBy => value.renameOrder ρ
  | .cursor => value.renameObject ρ

theorem renameMembers_cons
    (member : Member)
    (value : Json)
    (rest : Json.Members) :
    Json.renameMembers ρ ((member.name, value) :: rest) =
      (member.name, renameMember ρ member value) ::
        Json.renameMembers ρ rest := by
  rw [Json.renameMembers, Member.ofName?_name]
  cases member <;> rfl

theorem mapM_orderElement?
    (ρ : Renaming)
    (items : List Json) :
    (items.map (Json.renameObject ρ)).mapM orderElement? =
      (items.mapM orderElement?).map
        (List.map ρ.entries) := by
  induction items with
  | nil => rfl
  | cons item items ih =>
      rw [List.map_cons, List.mapM_cons, List.mapM_cons, ih]
      cases item with
      | object members =>
          cases items.mapM orderElement? <;> rfl
      | _ => rfl

theorem follows_readMembers
    (rename : Json.Members → Json.Members)
    {value other : Json}
    (hObject : ∀ members, value = .object members →
      other = .object (rename members)) :
    Follows (fun members others => others = rename members)
      (readMembers value) (readMembers other) := by
  cases value with
  | object members =>
      rw [hObject members rfl]
      exact .ok rfl
  | _ => exact .error _

theorem follows_readOrderBy (value : Json) :
    Follows (fun order other => other = order.rename ρ)
      (readOrderBy value)
      (readOrderBy (value.renameOrder ρ)) := by
  cases value with
  | object members => exact .ok rfl
  | array items =>
      have hItems := mapM_orderElement? ρ items
      unfold Json.renameOrder readOrderBy
      simp only
      rw [hItems]
      cases items.mapM orderElement? with
      | none => exact .error _
      | some sequence => exact .ok rfl
  | _ => exact .error _

theorem renameMember_eq_null_iff
    (member : Member)
    (value : Json) :
    renameMember ρ member value = .null ↔ value = .null := by
  cases value <;> cases member <;>
    simp [renameMember, Json.renameFilter,
      Json.renameRelations, Json.renameObject,
      Json.renameOrder]

/- A member is set under the new names as under the old. -/
theorem follows_setMember
    (d : Description)
    (member : Member)
    (value : Json) :
    Follows (fun read other => other = read.rename ρ)
      (d.setMember member value)
      ((d.rename ρ).setMember member
        (renameMember ρ member value)) := by
  by_cases hValue : value = .null
  · rw [(renameMember_eq_null_iff member value).mpr hValue,
      hValue]
    exact .ok rfl
  · have hRenamed : renameMember ρ member value ≠ .null :=
      (renameMember_eq_null_iff member value).not.mpr hValue
    rw [setMember_of_ne hValue, setMember_of_ne hRenamed]
    have hEntries :
        Follows (fun ms others => others = ρ.entries ms)
          (readMembers value)
          (readMembers (value.renameObject ρ)) := by
      refine follows_readMembers ρ.entries ?_
      rintro members rfl
      rfl
    cases member with
    | filter =>
        have hRead :
            Follows
              (fun ms others =>
                others = Json.renameEntries ρ ms)
              (readMembers value)
              (readMembers (value.renameFilter ρ)) := by
          refine follows_readMembers _ ?_
          rintro members rfl
          rfl
        refine hRead.map fun ms others hSame => ?_
        rw [hSame]
        rfl
    | relations =>
        have hRead :
            Follows
              (fun ms others =>
                others = Json.renameIncluded ρ ms)
              (readMembers value)
              (readMembers (value.renameRelations ρ)) := by
          refine follows_readMembers _ ?_
          rintro members rfl
          rfl
        refine hRead.map fun ms others hSame => ?_
        rw [hSame]
        rfl
    | selection =>
        refine hEntries.map fun ms others hSame => ?_
        rw [hSame]
        rfl
    | take =>
        exact (Follows.refl (R := Eq) (readCount value)
          fun _ => rfl).map fun n m hSame => by
            rw [hSame]
            rfl
    | skip =>
        exact (Follows.refl (R := Eq) (readCount value)
          fun _ => rfl).map fun n m hSame => by
            rw [hSame]
            rfl
    | orderBy =>
        refine (follows_readOrderBy value).map
          fun order other hSame => ?_
        rw [hSame]
        rfl
    | cursor =>
        refine hEntries.map fun ms others hSame => ?_
        rw [hSame]
        rfl

theorem follows_foldlM
    (members : Json.Members)
    (d : Description) :
    Follows (fun read other => other = read.rename ρ)
      (members.foldlM setNamed d)
      ((Json.renameMembers ρ members).foldlM setNamed
        (d.rename ρ)) := by
  induction members generalizing d with
  | nil => exact .ok rfl
  | cons entry rest ih =>
      rcases entry with ⟨key, value⟩
      cases hName : Member.ofName? key with
      | none =>
          rw [List.foldlM_cons, setNamed, hName]
          exact .error _
      | some member =>
          rw [Member.ofName?_eq_some_iff] at hName
          subst hName
          rw [renameMembers_cons, List.foldlM_cons,
            List.foldlM_cons]
          unfold setNamed
          simp only [Member.ofName?_name]
          refine (follows_setMember d member value).bind
            fun read other hRead => ?_
          rw [hRead]
          exact ih read

/- A renamed description is read as it was, renamed. -/
theorem follows_ofMembers (members : Json.Members) :
    Follows (fun d other => other = d.rename ρ)
      (ofMembers members)
      (ofMembers (Json.renameMembers ρ members)) :=
  follows_foldlM members empty

end Description

end Criteria

------------------------------------------------------------
-- Sort Keys and Selections
------------------------------------------------------------

namespace Criteria

open Except

variable {ρ : Renaming}

namespace SortKey

theorem follows_ofMember (member : String × Json) :
    Follows (fun key other => other = key.rename ρ)
      (ofMember member)
      (ofMember (ρ.apply member.1, member.2)) := by
  have hDirection :
      Follows Eq (directionOf member.1 member.2)
        (directionOf (ρ.apply member.1) member.2) := by
    unfold directionOf
    simp only
    split
    · exact .ok rfl
    · exact .error _
  refine hDirection.map fun direction other hSame => ?_
  rw [hSame]
  rfl

/- A renamed field has the direction declared for it. -/
theorem declared?_rename
    (keys : List SortKey)
    (name : String) :
    declared? (keys.map (rename ρ)) (ρ.apply name) =
      declared? keys name := by
  have hSame : ∀ key : SortKey,
      (decide ((key.rename ρ).field = ρ.apply name)) =
        decide (key.field = name) := by
    intro key
    exact decide_eq_decide.mpr ρ.injective.eq_iff
  unfold declared?
  rw [List.find?_map, Option.map_map]
  simp only [Function.comp_def, hSame]
  rfl

end SortKey

theorem OrderBy.members_rename
    (ρ : Renaming)
    (order : OrderBy) :
    (order.rename ρ).members = ρ.entries order.members := by
  cases order with
  | single members => rfl
  | sequence items => exact (List.map_flatten ..).symm

theorem Description.follows_sortKeys (d : Description) :
    Follows (fun keys others =>
        others = keys.map (SortKey.rename ρ))
      d.sortKeys (d.rename ρ).sortKeys := by
  unfold sortKeys rename
  cases d.orderBy with
  | none => exact .ok rfl
  | some order =>
      have hMembers := order.members_rename ρ
      simp only [Option.map_some, OrderBy.keys, hMembers]
      exact Follows.mapM_map SortKey.follows_ofMember _

theorem Cursor.boundary?_rename
    (primary : Key)
    (secondary : Option Key) :
    boundary? (primary.rename ρ)
        (secondary.map (Key.rename ρ)) =
      boundary? primary secondary := by
  rcases primary with ⟨field, column, direction, value⟩
  cases value with
  | none => rfl
  | some v =>
      match secondary with
      | none => rfl
      | some ⟨_, _, _, none⟩ => rfl
      | some ⟨_, _, _, some w⟩ => rfl

namespace Translator

variable {t : Translator}

theorem follows_sortTerms (keys : List SortKey) :
    Follows (fun terms others =>
        others = terms.map (SortTerm.rename ρ))
      (t.sortTerms keys)
      ((t.rename ρ).sortTerms
        (keys.map (SortKey.rename ρ))) := by
  refine Follows.mapM_map (fun key => ?_) keys
  refine (t.schema.follows_resolve ρ key.field).map
    fun field other hSame => ?_
  rw [hSame]
  rfl

theorem follows_selectColumn (member : String × Json) :
    Follows (fun entry other =>
        other = (ρ.apply entry.1, entry.2))
      (selectColumn member)
      (selectColumn (ρ.apply member.1, member.2)) := by
  rcases member with ⟨name, value⟩
  cases value with
  | bool b => exact .ok rfl
  | _ => exact .error _

theorem follows_columns? (members? : Option Json.Members) :
    Follows (Option.Rel (NameMap.Renames ρ))
      (columns? members?)
      (columns? (members?.map ρ.entries)) := by
  cases members? with
  | none => exact .ok .none
  | some members =>
      have hEntries :
          Follows (fun entries others =>
              others = ρ.entries entries)
            (members.mapM selectColumn)
            ((ρ.entries members).mapM selectColumn) :=
        Follows.mapM_map follows_selectColumn members
      refine (hEntries.map (S := NameMap.Renames ρ)
        fun entries others hSame => ?_).map
        fun map other hMap => .some hMap
      exact ⟨entries, rfl, congrArg NameMap.ofList hSame⟩

------------------------------------------------------------
-- Cursors of Renamed Descriptions
------------------------------------------------------------

variable {keys : List SortKey}

theorem follows_cursorKey
    (name : String)
    (value : Json) :
    Follows (fun key other => other = key.rename ρ)
      (t.cursorKey keys name value)
      ((t.rename ρ).cursorKey (keys.map (SortKey.rename ρ))
        (ρ.apply name) value) := by
  refine (t.schema.follows_resolve ρ name).bind
    fun field other hField => ?_
  subst hField
  refine (Follows.refl (R := Eq)
    (cursorValue? field.kind value) fun _ => rfl).map
    fun value? other hValue => ?_
  rw [hValue, SortKey.declared?_rename]
  rfl

theorem entries_filter
    (tiebreaker : String)
    (members : Json.Members) :
    (ρ.entries members).filter
        (fun m => m.1 ≠ ρ.apply tiebreaker) =
      ρ.entries
        (members.filter fun m => m.1 ≠ tiebreaker) := by
  have hSame : ∀ member : String × Json,
      decide (ρ.apply member.1 ≠ ρ.apply tiebreaker) =
        decide (member.1 ≠ tiebreaker) := by
    intro member
    exact decide_eq_decide.mpr ρ.injective.ne_iff
  unfold Renaming.entries
  rw [List.filter_map]
  simp only [Function.comp_def, hSame]

theorem entries_find?
    (tiebreaker : String)
    (members : Json.Members) :
    ((ρ.entries members).find?
        fun m => m.1 = ρ.apply tiebreaker) =
      (members.find? fun m => m.1 = tiebreaker).map
        fun m => (ρ.apply m.1, m.2) := by
  have hSame : ∀ member : String × Json,
      decide (ρ.apply member.1 = ρ.apply tiebreaker) =
        decide (member.1 = tiebreaker) := by
    intro member
    exact decide_eq_decide.mpr ρ.injective.eq_iff
  unfold Renaming.entries
  rw [List.find?_map]
  simp only [Function.comp_def, hSame]

theorem follows_primaryMember
    (tiebreaker : String)
    (members : Json.Members) :
    Follows (fun member other =>
        other = (ρ.apply member.1, member.2))
      (primaryMember tiebreaker members)
      (primaryMember (ρ.apply tiebreaker)
        (ρ.entries members)) := by
  intro member hMember
  refine ⟨_, ?_, rfl⟩
  rw [primaryMember_eq_ok_iff] at hMember ⊢
  rw [entries_filter, entries_find?]
  rcases hMember with hOther | ⟨hNone, hTie⟩
  · rw [hOther]
    exact .inl rfl
  · rw [hNone, hTie]
    exact .inr ⟨rfl, rfl⟩

/- The keys of a renamed cursor are the keys, renamed. -/
theorem follows_cursorKeys (members : Json.Members) :
    Follows (fun pair other =>
        other.1 = pair.1.rename ρ ∧
        other.2 = pair.2.map (Cursor.Key.rename ρ))
      (t.cursorKeys keys members)
      ((t.rename ρ).cursorKeys
        (keys.map (SortKey.rename ρ))
        (ρ.entries members)) := by
  refine (follows_primaryMember _ members).bind
    fun member other hMember => ?_
  subst hMember
  rcases member with ⟨name, value⟩
  refine (follows_cursorKey name value).bind
    fun primary other hPrimary => ?_
  have hSame :
      ρ.apply name = (t.rename ρ).settings.tiebreaker ↔
        name = t.settings.tiebreaker :=
    ρ.injective.eq_iff
  by_cases hName : name = t.settings.tiebreaker
  · rw [if_pos hName, if_pos (hSame.mpr hName)]
    exact .ok ⟨hPrimary, rfl⟩
  · rw [if_neg hName, if_neg (hSame.not.mpr hName)]
    have hTie :
        (ρ.entries members).lookup
            (t.rename ρ).settings.tiebreaker =
          members.lookup t.settings.tiebreaker :=
      ρ.lookup_entries members _
    simp only [hTie]
    refine (follows_cursorKey _ _).map
      fun key other hKey => ?_
    exact ⟨hPrimary, congrArg some hKey⟩

theorem follows_applyCursor
    (cursor? : Option Json.Members)
    {q r : Query}
    (hQuery : q.Renames ρ r) :
    Follows (Query.Renames ρ) (t.applyCursor keys cursor? q)
      ((t.rename ρ).applyCursor
        (keys.map (SortKey.rename ρ))
        (cursor?.map ρ.entries) r) := by
  cases cursor? with
  | none => exact .ok hQuery
  | some members =>
      refine (follows_cursorKeys members).map ?_
      rintro ⟨primary, secondary⟩ ⟨first, second⟩
        ⟨hPrimary, hSecondary⟩
      simp only at hPrimary hSecondary
      subst hPrimary hSecondary
      exact {
        condition := by
          simp only [Cursor.paginate, hQuery.condition,
            Cursor.boundary?_rename]
        columns := hQuery.columns
        limit := hQuery.limit
        offset := hQuery.offset
        order := by
          cases secondary <;> rfl }

------------------------------------------------------------
-- Renamed Translations
------------------------------------------------------------

theorem follows_filterCondition?
    (filter? : Option Json.Members) :
    Follows Eq (t.filterCondition? filter?)
      ((t.rename ρ).filterCondition?
        (filter?.map (Json.renameEntries ρ))) := by
  cases filter? with
  | none => exact .ok rfl
  | some members =>
      refine (Filter.follows_ofMembers _ _ members).bind
        fun f g hRenames => ?_
      exact Filter.follows_condition? .conjunctive hRenames

section Relations

variable {translate other :
  Description → Except Error Query}
variable (hTranslate : ∀ d : Description,
  Follows (Query.Renames ρ) (translate d)
    (other (d.rename ρ)))

include hTranslate in
theorem follows_relation
    (name : String)
    (value : Json) :
    Follows (fun _ _ => True)
      (relation translate (name, value))
      (relation other (name, value.renameDescription ρ)) := by
  cases value with
  | object members =>
      refine (Description.follows_ofMembers members).bind
        fun d renamed hRead => ?_
      subst hRead
      have hFilter :
          (d.rename ρ).filter.isSome = d.filter.isSome :=
        Option.isSome_map
      rw [hFilter]
      split
      · exact .error _
      · exact (hTranslate d).map fun _ _ _ => trivial
  | _ => exact .ok trivial

include hTranslate in
theorem follows_relations?
    (members? : Option Json.Members) :
    Follows (fun _ _ => True)
      (relations? translate members?)
      (relations? other
        (members?.map (Json.renameIncluded ρ))) := by
  cases members? with
  | none => exact .ok trivial
  | some members =>
      have hEntries :
          List.Forall₂
            (fun member renamed =>
              Follows (fun _ _ => True)
                (relation translate member)
                (relation other renamed))
            members (Json.renameIncluded ρ members) := by
        induction members with
        | nil => exact .nil
        | cons member rest ih =>
            rcases member with ⟨name, value⟩
            exact .cons
              (follows_relation hTranslate name value) ih
      exact (Follows.mapM hEntries).map fun _ _ _ => trivial

end Relations

theorem follows_translateWithin
    (levels : Nat)
    (d : Description) :
    Follows (Query.Renames ρ) (t.translateWithin levels d)
      ((t.rename ρ).translateWithin levels (d.rename ρ)) := by
  induction levels generalizing d with
  | zero => exact .error _
  | succ levels ih =>
      unfold translateWithin
      refine (follows_filterCondition? d.filter).bind
        fun condition _ hCondition => ?_
      refine (follows_relations? ih d.relations).bind
        fun relations others _ => ?_
      refine (follows_columns? d.selection).bind
        fun columns names hColumns => ?_
      refine d.follows_sortKeys.bind fun keys _ hKeys => ?_
      subst hKeys
      refine (follows_sortTerms keys).bind
        fun order terms hOrder => ?_
      refine follows_applyCursor d.cursor ?_
      exact {
        condition := hCondition.symm
        columns := hColumns
        limit := rfl
        offset := rfl
        order := hOrder }

/- A renamed description gives the query, renamed. -/
theorem follows_translate
    (ρ : Renaming)
    (d : Description) :
    Follows (Query.Renames ρ) (t.translate d)
      ((t.rename ρ).translate (d.rename ρ)) :=
  follows_translateWithin t.settings.maxDepth d

end Translator

end Criteria

------------------------------------------------------------
-- Renamed Statements
------------------------------------------------------------

namespace Criteria

open Except

variable {ρ : Renaming}

theorem Renaming.exists_of_lookup_entries
    {α : Type}
    {entries : List (String × α)}
    {name : String}
    {value : α}
    (hFound :
      (ρ.entries entries).lookup name = some value) :
    ∃ old, name = ρ.apply old ∧
      entries.lookup old = some value := by
  induction entries with
  | nil => cases hFound
  | cons entry rest ih =>
      rcases entry with ⟨key, first⟩
      by_cases hName : name = ρ.apply key
      · refine ⟨key, hName, ?_⟩
        rw [hName, ρ.lookup_entries] at hFound
        exact hFound
      · have hRest :
            (ρ.entries rest).lookup name = some value := by
          rw [Renaming.entries, List.map_cons,
            NameMap.lookup_cons_eq_if, if_neg hName]
            at hFound
          exact hFound
        rcases ih hRest with ⟨old, rfl, hOld⟩
        refine ⟨old, rfl, ?_⟩
        have hKey : old ≠ key := by
          rintro rfl
          exact hName rfl
        rw [NameMap.lookup_cons_eq_if, if_neg hKey]
        exact hOld

namespace NameMap

/- The names that are given true. -/
def chosen (map : NameMap Bool) : List String :=
  (map.filter fun entry => entry.2).map fun entry => entry.1

theorem ascending_chosen
    {map : NameMap Bool}
    (hMap : Ascending map) :
    map.chosen.Pairwise (· < ·) := by
  unfold chosen
  rw [List.pairwise_map]
  exact hMap.filter _

theorem mem_chosen_iff
    {map : NameMap Bool}
    (hMap : Ascending map)
    (name : String) :
    name ∈ map.chosen ↔ map.lookup name = some true := by
  rw [← mem_iff_lookup hMap]
  simp [chosen]

/-
  Chosen names are renamed one by one, as long as they keep
  their order.
-/
theorem Renames.chosen_eq
    {map other : NameMap Bool}
    (hRenames : Renames ρ map other)
    (hOrder : ∀ a ∈ map.chosen, ∀ b ∈ map.chosen,
      a < b → ρ.apply a < ρ.apply b) :
    other.chosen = map.chosen.map ρ.apply := by
  rcases hRenames with ⟨entries, rfl, rfl⟩
  have hMap := ascending_ofList entries
  have hOther := ascending_ofList (ρ.entries entries)
  -- Both lists ascend, so that equal names are enough.
  refine (ascending_chosen hOther).eq_of_mem_iff ?_ ?_
  · rw [List.pairwise_map]
    refine (ascending_chosen hMap).imp_of_mem ?_
    intro a b hA hB hLess
    exact hOrder a hA b hB hLess
  · intro name
    have hReverse :
        (ρ.entries entries).reverse =
          ρ.entries entries.reverse :=
      List.map_reverse.symm
    rw [mem_chosen_iff hOther, lookup_ofList, hReverse,
      List.mem_map]
    simp only [mem_chosen_iff hMap, lookup_ofList]
    constructor
    · intro hFound
      rcases Renaming.exists_of_lookup_entries hFound with
        ⟨old, rfl, hOld⟩
      exact ⟨old, hOld, rfl⟩
    · rintro ⟨old, hOld, rfl⟩
      rw [ρ.lookup_entries]
      exact hOld

end NameMap

/- A renamed query gives the same statement. -/
theorem Query.statement_of_renames
    {q r : Query}
    (hRenames : q.Renames ρ r)
    (hOrder : ∀ a ∈ q.selectedNames, ∀ b ∈ q.selectedNames,
      a < b → ρ.apply a < ρ.apply b)
    (table : Table)
    (schema : Schema) :
    Follows Eq (q.statement table schema)
      (r.statement table (schema.rename ρ)) := by
  have hNames :
      r.selectedNames = q.selectedNames.map ρ.apply := by
    have hColumns := hRenames.columns
    unfold selectedNames at hOrder ⊢
    generalize q.columns = columns at hColumns hOrder ⊢
    generalize r.columns = others at hColumns ⊢
    cases hColumns with
    | none => rfl
    | some hMap => exact hMap.chosen_eq hOrder
  have hSelected :
      Follows (fun columns others => others = columns)
        (q.selectedColumns schema)
        (r.selectedColumns (schema.rename ρ)) := by
    unfold selectedColumns
    rw [hNames]
    have hColumn : ∀ name,
        Follows (fun column other => other = id column)
          (Field.column <$> schema.resolve name)
          (Field.column <$>
            (schema.rename ρ).resolve (ρ.apply name)) := by
      intro name
      refine (schema.follows_resolve ρ name).map
        fun field other hSame => ?_
      rw [hSame]
      rfl
    have hColumns :
        Follows (fun columns others => others = columns.map id)
          (q.selectedNames.mapM fun name =>
            Field.column <$> schema.resolve name)
          ((q.selectedNames.map ρ.apply).mapM fun name =>
            Field.column <$>
              (schema.rename ρ).resolve name) :=
      Follows.mapM_map (h := ρ.apply) hColumn q.selectedNames
    simp only [List.map_id] at hColumns
    exact hColumns
  refine hSelected.map fun selected others hSame => ?_
  rw [hSame, hRenames.condition, hRenames.limit,
    hRenames.offset, hRenames.order, List.map_map]
  rfl

end Criteria
