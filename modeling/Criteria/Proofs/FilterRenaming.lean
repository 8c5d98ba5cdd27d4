import Criteria.Proofs.FilterGrammar
import Criteria.Proofs.FilterMeaning
import Criteria.Proofs.Outcome

/-
  This file proves that the names of fields leave no trace in
  the condition of a filter.

  Fields are renamed without two of them becoming one, and
  none becomes the word of a connective. If a filter and its
  schema are renamed together, the condition stays the same.

  Key definitions include:
    * `Renaming`
    * `Schema.rename`
    * `Json.renameEntries`
    * `Filter.Renames`

  Main statements:
    * `Schema.find?_rename`
    * `Operator.follows_condition`
    * `Filter.follows_ofMembers`
    * `Filter.follows_condition?`
-/

------------------------------------------------------------
-- Renamings
------------------------------------------------------------

namespace Criteria

/- New names for all fields. -/
structure Renaming where
  apply : String → String
  injective : Function.Injective apply
  isFieldName :
    ∀ name, Filter.IsFieldName name →
      Filter.IsFieldName (apply name)

variable (ρ : Renaming)

/- Named values under the new names. -/
def Renaming.entries
    {α : Type}
    (entries : List (String × α)) : List (String × α) :=
  entries.map fun entry => (ρ.apply entry.1, entry.2)

theorem Renaming.lookup_entries
    {α : Type}
    (entries : List (String × α))
    (name : String) :
    (ρ.entries entries).lookup (ρ.apply name) =
      entries.lookup name := by
  induction entries with
  | nil => rfl
  | cons entry rest ih =>
      rcases entry with ⟨key, value⟩
      have hSame : ρ.apply name = ρ.apply key ↔ name = key :=
        ρ.injective.eq_iff
      rw [entries, List.map_cons, NameMap.lookup_cons_eq_if,
        NameMap.lookup_cons_eq_if]
      simp only [hSame]
      rw [← ih, entries]

/- The schema that has its fields under the new names. -/
def Schema.rename (schema : Schema) : Schema :=
  ⟨ρ.entries schema.fields⟩

theorem Schema.find?_rename
    (schema : Schema)
    (name : String) :
    (schema.rename ρ).find? (ρ.apply name) =
      schema.find? name :=
  ρ.lookup_entries schema.fields name

/- A field is known by its new name as it was by the old. -/
theorem Schema.follows_resolve
    (schema : Schema)
    (name : String) :
    Except.Follows Eq (schema.resolve name)
      ((schema.rename ρ).resolve (ρ.apply name)) := by
  intro field hField
  refine ⟨field, ?_, rfl⟩
  rw [resolve_eq_ok_iff] at hField ⊢
  rw [find?_rename, hField]

namespace Json

mutual

/- A filter with new names, where names of fields stand. -/
def renameFilter : Json → Json
  | .object members => .object (renameEntries members)
  | .array items => .array (renameItems items)
  | value => value

def renameEntries :
    List (String × Json) → List (String × Json)
  | [] => []
  | (key, value) :: rest =>
      (if (Connective.ofWord? key).isSome then
        (key, value.renameFilter)
      else (ρ.apply key, value)) :: renameEntries rest

def renameItems : List Json → List Json
  | [] => []
  | item :: rest => item.renameFilter :: renameItems rest

end

variable {ρ}

theorem renameEntries_connective
    (op : Connective)
    (value : Json)
    (rest : Members) :
    renameEntries ρ ((op.word, value) :: rest) =
      (op.word, value.renameFilter ρ) ::
        renameEntries ρ rest := by
  rw [renameEntries, Connective.ofWord?_word]
  rfl

theorem renameEntries_field
    {name : String}
    (hField : Filter.IsFieldName name)
    (value : Json)
    (rest : Members) :
    renameEntries ρ ((name, value) :: rest) =
      (ρ.apply name, value) :: renameEntries ρ rest := by
  rw [renameEntries, (Filter.isFieldName_iff name).mp hField]
  rfl

end Json

------------------------------------------------------------
-- Renamed Filters
------------------------------------------------------------

namespace Filter

mutual

/- The same filter, but for the names of its fields. -/
inductive Renames : Filter → Filter → Prop where
  | mk
      {entries others : List (Key × Content)}
      (hEntries :
        List.Forall₂ EntryRenames entries others) :
      Renames ⟨entries⟩ ⟨others⟩

inductive EntryRenames :
    Key × Content → Key × Content → Prop where
  | field
      (name : String)
      (content : Content) :
      EntryRenames (.field name, content)
        (.field (ρ.apply name), content)
  | branches
      {items others : List Filter}
      (op : Connective)
      (hItems : List.Forall₂ Renames items others) :
      EntryRenames (.connective op, .branches items)
        (.connective op, .branches others)
  | branch
      {item other : Filter}
      (op : Connective)
      (hItem : Renames item other) :
      EntryRenames (.connective op, .branch item)
        (.connective op, .branch other)

end

end Filter

end Criteria

------------------------------------------------------------
-- Reading Renamed Filters
------------------------------------------------------------

namespace Criteria

namespace Filter

open Except

variable {ρ : Renaming}

section Entries

variable {readOperators :
  Json.Members → Except Error Operators}
variable {readFilter : Json.Members → Except Error Filter}

/- The name of a field is no part of its content. -/
theorem follows_fieldContent
    (name other : String)
    (value : Json) :
    Follows (fun content same => same = content)
      (fieldContent readOperators name value)
      (fieldContent readOperators other value) := by
  cases value with
  | array items => exact .error _
  | _ => exact .refl _ fun _ => rfl

variable (hFilter : ∀ members : Json.Members,
  Follows (Renames ρ) (readFilter members)
    (readFilter (Json.renameEntries ρ members)))

include hFilter in
theorem follows_element
    (op : Connective)
    (item : Json) :
    Follows (Renames ρ) (element readFilter op item)
      (element readFilter op (item.renameFilter ρ)) := by
  cases item with
  | object members => exact hFilter members
  | _ => exact .error _

theorem forall₂_renameItems
    {P : Json → Json → Prop}
    (hItem : ∀ item : Json, P item (item.renameFilter ρ))
    (items : List Json) :
    List.Forall₂ P items (Json.renameItems ρ items) := by
  induction items with
  | nil => exact .nil
  | cons item rest ih => exact .cons (hItem item) ih

include hFilter in
theorem follows_connectiveContent
    (op : Connective)
    (value : Json) :
    Follows
      (fun content other =>
        EntryRenames ρ (.connective op, content)
          (.connective op, other))
      (connectiveContent readFilter op value)
      (connectiveContent readFilter op
        (value.renameFilter ρ)) := by
  cases value with
  | object members =>
      exact (hFilter members).map fun item other hItem =>
        .branch op hItem
  | array items =>
      have hItems := Follows.mapM
        (forall₂_renameItems (follows_element hFilter op)
          items)
      exact hItems.map fun items others hItems =>
        .branches op hItems
  | _ => exact .error _

variable (readOperators) in
include hFilter in
theorem follows_entries (members : Json.Members) :
    List.Forall₂
      (fun member other =>
        Follows (EntryRenames ρ)
          (entryOf readOperators readFilter member)
          (entryOf readOperators readFilter other))
      members (Json.renameEntries ρ members) := by
  induction members with
  | nil => exact .nil
  | cons member rest ih =>
      rcases member with ⟨key, value⟩
      cases hWord : Connective.ofWord? key with
      | some op =>
          rw [Connective.ofWord?_eq_some_iff] at hWord
          subst hWord
          rw [Json.renameEntries_connective]
          refine .cons ?_ ih
          rw [entryOf_connective, entryOf_connective]
          exact (follows_connectiveContent hFilter op
            value).map fun _ _ hEntry => hEntry
      | none =>
          have hField := (isFieldName_iff key).mpr hWord
          rw [Json.renameEntries_field hField]
          refine .cons ?_ ih
          rw [entryOf_field _ _ hField,
            entryOf_field _ _ (ρ.isFieldName key hField)]
          refine (follows_fieldContent key (ρ.apply key)
            value).map fun content same hSame => ?_
          rw [hSame]
          exact .field key content

end Entries

/- A renamed filter is read as the filter, renamed. -/
theorem follows_ofMembers
    (most levels : Nat)
    (members : Json.Members) :
    Follows (Renames ρ) (ofMembers most levels members)
      (ofMembers most levels
        (Json.renameEntries ρ members)) := by
  induction levels generalizing members with
  | zero => exact .error _
  | succ levels ih =>
      unfold ofMembers
      have hEntries := Follows.mapM
        (follows_entries
          (Operators.ofMembers most levels .sensitive) ih
          members)
      exact hEntries.map fun entries others hRenames =>
        .mk hRenames

end Filter

end Criteria

------------------------------------------------------------
-- Conditions of Renamed Filters
------------------------------------------------------------

namespace Criteria

open Except

namespace Operator

/- The name of a field only matters to errors. -/
theorem follows_condition
    (op : Operator)
    (name other : String)
    (field : Field)
    (mode : MatchMode)
    (context : Context)
    (operand : Json) :
    Follows Eq (op.condition name field mode context operand)
      (op.condition other field mode context operand) := by
  have hList :
      Follows Eq (op.ensureList name field)
        (op.ensureList other field) := by
    unfold ensureList
    split
    · exact .ok rfl
    · exact .error _
  cases op with
  | has =>
      refine hList.bind fun _ _ _ => ?_
      exact .refl _ fun _ => rfl
  | hasEvery =>
      refine hList.bind fun _ _ _ => ?_
      exact .refl _ fun _ => rfl
  | hasSome =>
      refine hList.bind fun _ _ _ => ?_
      exact .refl _ fun _ => rfl
  | _ => exact .refl _ fun _ => rfl

end Operator

namespace Filter

variable {field : Field}

mutual

theorem Operators.follows_condition?
    (name other : String)
    (context : Context) :
    ∀ operators : Operators,
      Follows Eq
        (Operators.condition? name field context operators)
        (Operators.condition? other field context operators)
  | ⟨mode, entries⟩ => by
      unfold Operators.condition?
      refine (follows_operatorConditions name other mode
        context entries).map fun cs ds hSame => ?_
      rw [hSame]

theorem follows_operatorConditions
    (name other : String)
    (mode : MatchMode)
    (context : Context) :
    ∀ entries : List (Operator × Operand),
      Follows Eq
        (operatorConditions name field mode context entries)
        (operatorConditions other field mode context entries)
  | [] => .ok rfl
  | (op, operand) :: rest => by
      unfold operatorConditions
      refine (Operand.follows_condition name other mode
        context op operand).bind fun c d hFirst => ?_
      refine (follows_operatorConditions name other mode
        context rest).map fun cs ds hRest => ?_
      rw [hFirst, hRest]

theorem Operand.follows_condition
    (name other : String)
    (mode : MatchMode)
    (context : Context)
    (op : Operator) :
    ∀ operand : Operand,
      Follows Eq
        (Operand.condition name field mode context op operand)
        (Operand.condition other field mode context op
          operand)
  | .value v => by
      unfold Operand.condition
      exact op.follows_condition name other field mode
        context v
  | .nested operators => by
      unfold Operand.condition
      cases op with
      | not =>
          refine (Operators.follows_condition? name other
            context.flipped operators).map
            fun c? d? hSame => ?_
          rw [hSame]
      | _ => exact .error _

end

variable {ρ : Renaming}
variable {schema : Schema}

theorem follows_fieldCondition?
    (context : Context)
    (name : String)
    (content : Content) :
    Follows Eq (fieldCondition? schema context name content)
      (fieldCondition? (schema.rename ρ) context
        (ρ.apply name) content) := by
  refine (schema.follows_resolve ρ name).bind
    fun field _ hField => ?_
  subst hField
  cases content with
  | null => exact .ok rfl
  | literal v =>
      refine (Operator.follows_condition .equals name
        (ρ.apply name) field .sensitive .conjunctive v).map
        fun c d hSame => ?_
      rw [hSame]
  | operators operators =>
      exact Operators.follows_condition? name (ρ.apply name)
        context.positive operators
  | branches items => exact .error _
  | branch item => exact .error _

mutual

/- A renamed filter gives the same condition. -/
theorem follows_condition?
    (context : Context) :
    ∀ {f g : Filter}, Renames ρ f g →
      Follows Eq (f.condition? schema context)
        (g.condition? (schema.rename ρ) context)
  | ⟨_⟩, ⟨_⟩, .mk hEntries => by
      unfold condition?
      refine (follows_entryConditions context hEntries).map
        fun cs ds hSame => ?_
      rw [hSame]

theorem follows_entryConditions
    (context : Context) :
    ∀ {entries others : List (Key × Content)},
      List.Forall₂ (EntryRenames ρ) entries others →
      Follows Eq (entryConditions schema context entries)
        (entryConditions (schema.rename ρ) context others)
  | [], [], .nil => .ok rfl
  | (_, _) :: _, (_, _) :: _, .cons hFirst hRest => by
      unfold entryConditions
      refine (follows_entryCondition? context hFirst).bind
        fun c? d? hSame => ?_
      refine (follows_entryConditions context hRest).map
        fun cs ds hOthers => ?_
      rw [hSame, hOthers]

theorem follows_entryCondition?
    (context : Context) :
    ∀ {entry other : Key × Content},
      EntryRenames ρ entry other →
      Follows Eq
        (entryCondition? schema context entry.1 entry.2)
        (entryCondition? (schema.rename ρ) context other.1
          other.2)
  | _, _, .field name content => by
      simp only [entryCondition?_field]
      exact follows_fieldCondition? context name content
  | _, _, .branches op hItems => by
      unfold entryCondition?
      refine (follows_itemConditions hItems).map
        fun cs ds hSame => ?_
      rw [hSame]
  | _, _, .branch op hItem => by
      have hSingle :
          Follows Eq
            ((fun c? => connect op context c?.toList) <$>
              condition? schema .conjunctive _)
            ((fun c? => connect op context c?.toList) <$>
              condition? (schema.rename ρ) .conjunctive _) :=
        (follows_condition? .conjunctive hItem).map
          fun c? d? hSame => by rw [hSame]
      unfold entryCondition?
      cases op with
      | or => exact follows_condition? .disjunctive hItem
      | and => exact hSingle
      | not => exact hSingle

theorem follows_itemConditions :
    ∀ {items others : List Filter},
      List.Forall₂ (Renames ρ) items others →
      Follows Eq (itemConditions schema items)
        (itemConditions (schema.rename ρ) others)
  | [], [], .nil => .ok rfl
  | _ :: _, _ :: _, .cons hFirst hRest => by
      unfold itemConditions
      refine (follows_condition? .conjunctive hFirst).bind
        fun c? d? hSame => ?_
      refine (follows_itemConditions hRest).map
        fun cs ds hOthers => ?_
      rw [hSame, hOthers]

end

end Filter

end Criteria
