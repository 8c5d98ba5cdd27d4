import Criteria.Value

/-
  This file defines statement text with bound values.

  A statement is a list of fragments, each of them fixed text
  or a value. It is written with numbered placeholders for
  the values, which are then sent beside it, or with the
  values in place.

  Key definitions include:
    * `Sql.template`
    * `Sql.values`
    * `Sql.identifier`
-/

------------------------------------------------------------
-- Fragments
------------------------------------------------------------

namespace Criteria

inductive Fragment where
  | text (s : String)
  | value (v : Value)
deriving DecidableEq

abbrev Sql := List Fragment

namespace Sql

/- The bound values, in the order of their placeholders. -/
def values (sql : Sql) : List Value :=
  sql.filterMap fun
    | .text _ => none
    | .value v => some v

def placeholder (n : Nat) : String :=
  String.ofList ('$' :: Nat.toDigits 10 n)

/- The text with placeholders numbered from `n` on. -/
def templateFrom
    (n : Nat) : Sql → String
  | [] => ""
  | .text s :: rest => s ++ templateFrom n rest
  | .value _ :: rest =>
      placeholder n ++ templateFrom (n + 1) rest

def template (sql : Sql) : String :=
  templateFrom 1 sql

/- Join statements with a text between them. -/
def joinWith
    (separator : String) : List Sql → Sql
  | [] => []
  | [sql] => sql
  | sql :: rest =>
      sql ++ .text separator :: joinWith separator rest

def parenthesized (sql : Sql) : Sql :=
  .text "(" :: sql ++ [.text ")"]

------------------------------------------------------------
-- Identifiers
------------------------------------------------------------

/- A quote inside of a name is written twice. -/
def identifierChar (c : Char) : List Char :=
  if c = '"' then ['"', '"'] else [c]

def identifier (name : String) : String :=
  String.ofList
    ('"' :: name.toList.flatMap identifierChar ++ ['"'])

end Sql

end Criteria
