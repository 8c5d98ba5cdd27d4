import Criteria.Error
import Criteria.NameMap

/-
  This file defines tables and the fields by which
  descriptions name their columns.

  Field names are matched exactly. A schema holds one field
  per name: a later field replaces an earlier one.

  Key definitions include:
    * `Table`
    * `Schema.insert`
    * `Schema.find?`
    * `Schema.resolve`

  Main statements:
    * `Schema.find?_insert`
-/

------------------------------------------------------------
-- Tables and Fields
------------------------------------------------------------

namespace Criteria

/- A column of a table, by its name in statements. -/
structure Column where
  name : String
deriving DecidableEq, Repr

/- A table with its columns in their declared order. -/
structure Table where
  name : String
  columns : List Column
deriving DecidableEq, Repr

/- What a field name stands for. -/
structure Field where
  column : Column
  kind : Kind
  isList : Bool
deriving DecidableEq, Repr

------------------------------------------------------------
-- Schemas
------------------------------------------------------------

structure Schema where
  fields : List (String × Field)
deriving Repr

namespace Schema

def empty : Schema :=
  ⟨[]⟩

/- Give a name a field, in place of its earlier one. -/
def insert
    (schema : Schema)
    (name : String)
    (field : Field) : Schema :=
  ⟨schema.fields.filter (fun entry => entry.1 ≠ name) ++
    [(name, field)]⟩

def find?
    (schema : Schema)
    (name : String) : Option Field :=
  schema.fields.lookup name

/- The field of a name, which has to be there. -/
def resolve
    (schema : Schema)
    (name : String) : Except Error Field :=
  match schema.find? name with
  | some field => .ok field
  | none => .error (.invalidField name)

def size (schema : Schema) : Nat :=
  schema.fields.length

------------------------------------------------------------
-- Lookup
------------------------------------------------------------

theorem find?_empty (name : String) :
    empty.find? name = none :=
  rfl

/- A field is found under its name and changes no other. -/
theorem find?_insert
    (schema : Schema)
    (name other : String)
    (field : Field) :
    (schema.insert name field).find? other =
      if other = name then some field
      else schema.find? other := by
  rcases schema with ⟨fields⟩
  unfold insert find?
  induction fields with
  | nil =>
      simp [NameMap.lookup_cons_eq_if]
  | cons entry rest ih =>
      rcases entry with ⟨key, old⟩
      by_cases hKey : key = name
      · by_cases hOther : other = name
        · simpa [hKey, hOther] using ih
        · simpa [hKey, hOther, NameMap.lookup_cons_eq_if]
            using ih
      · by_cases hSame : other = key
        · simp [hKey, hSame]
        · simpa [hKey, hSame, NameMap.lookup_cons_eq_if]
            using ih

theorem resolve_eq_ok_iff
    (schema : Schema)
    (name : String)
    (field : Field) :
    schema.resolve name = .ok field ↔
      schema.find? name = some field := by
  unfold resolve
  cases schema.find? name <;> simp

theorem resolve_eq_error_iff
    (schema : Schema)
    (name : String)
    (e : Error) :
    schema.resolve name = .error e ↔
      schema.find? name = none ∧ e = .invalidField name := by
  unfold resolve
  cases schema.find? name <;> simp [eq_comm]

end Schema

end Criteria
