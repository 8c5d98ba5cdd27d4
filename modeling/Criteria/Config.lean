import Criteria.Json
import Criteria.NameMap

/-
  This file defines configurations: trees of named values
  that come from several sources, one above the other.

  Where two sources have a table under one name the tables
  are merged; otherwise the later source replaces what the
  earlier one has.

  Key definitions include:
    * `Config`
    * `Config.merge`
    * `Config.ofJson`
    * `Config.layered?`
-/

------------------------------------------------------------
-- Configurations
------------------------------------------------------------

namespace Criteria

inductive Config where
  | empty
  | bool (b : Bool)
  | unsigned (n : Nat)
  | signed (n : Int)
  | float (x : Binary64)
  | text (s : String)
  | list (items : List Config)
  | table (entries : List (String × Config))
deriving Repr, BEq

namespace Config

------------------------------------------------------------
-- Merging
------------------------------------------------------------

mutual

/- A configuration with a later one above it. -/
def merge (old : Config) : Config → Config
  | .table entries =>
      match old with
      | .table below => .table (mergeEntries below entries)
      | _ => .table entries
  | new => new

def mergeEntries
    (below : NameMap Config) :
    List (String × Config) → NameMap Config
  | [] => below
  | (name, new) :: rest =>
      let value :=
        match below.lookup name with
        | some old => merge old new
        | none => new
      mergeEntries (NameMap.insert name value below) rest

end

/- A source of configuration, if it could be read. -/
abbrev Layer := Option (NameMap Config)

/-
  The configuration of sources from the lowest to the
  highest. A source that is not a table spoils the whole.
-/
def layered? (layers : List Layer) : Layer :=
  layers.foldlM (fun below layer =>
    layer.map (mergeEntries below)) []

/- A table of one value at the end of a path. -/
def nest
    (path : List String)
    (value : Config) : Config :=
  path.foldr (fun name inner => .table [(name, inner)]) value

------------------------------------------------------------
-- Configurations in JSON
------------------------------------------------------------

mutual

def ofJson : Json → Config
  | .null => .empty
  | .bool b => .bool b
  | .number (.integer n) =>
      if n < 0 then .signed n else .unsigned n.toNat
  | .number (.float x) => .float x
  | .string s => .text s
  | .array items => .list (ofItems items)
  | .object members => .table (ofMembers [] members)

def ofItems : List Json → List Config
  | [] => []
  | item :: rest => ofJson item :: ofItems rest

def ofMembers
    (done : NameMap Config) :
    List (String × Json) → NameMap Config
  | [] => done
  | (name, value) :: rest =>
      ofMembers (NameMap.insert name (ofJson value) done) rest

end

/- The entries of a configuration that is a table. -/
def entries? : Config → Layer
  | .table entries => some entries
  | _ => none

end Config

end Criteria
