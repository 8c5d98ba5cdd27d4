import Criteria.Binary64.Layout
import Criteria.Config.Environment
import Criteria.Config.Yaml
import Criteria.Settings
import Criteria.Text.Quoted

/-
  This file reads settings from configurations.

  The settings are one table of a configuration. Without that
  table, or without a configuration that can be read at all,
  the settings are the default ones; a table that has only
  some of them leaves the others at their default.

  Key definitions include:
    * `Settings.Fault`
    * `Settings.ofSection`
    * `Settings.ofLayers`
    * `Settings.load`
-/

------------------------------------------------------------
-- Faults
------------------------------------------------------------

namespace Criteria

namespace Settings

/- What a setting has to be. -/
inductive Part where
  | depth
  | name
  | settings
deriving DecidableEq, Repr

def Part.label : Part → String
  | .depth => "usize"
  | .name => "a string"
  | .settings => "struct TranslatorConfig"

/- A configured value that its place does not take. -/
inductive Cause where
  | mismatch (got : Config) (expected : Part)
  | negative (n : Int)
deriving Repr, BEq

/- A cause with the path of names to the value, last first. -/
structure Fault where
  cause : Cause
  path : List String
deriving Repr, BEq

def integerText (n : Int) : String :=
  let digits := Nat.toDigits 10 n.natAbs
  String.ofList (if n < 0 then '-' :: digits else digits)

/- How a message names a configured value. -/
def gotText : Config → String
  | .empty => "unit"
  | .bool true => "bool true"
  | .bool false => "bool false"
  | .unsigned n =>
      if n < Nat.pow 2 64 then
        "unsigned int `" ++ integerText n ++ "`"
      else "integer `" ++ integerText n ++ "` as u128"
  | .signed n =>
      if -Int.pow 2 63 ≤ n then
        "signed int `" ++ integerText n ++ "`"
      else "integer `" ++ integerText n ++ "` as i128"
  | .float x =>
      "float `" ++ String.ofList (x.chars .plain) ++ "`"
  | .text s => "string " ++ Text.quoted s
  | .list _ => "sequence"
  | .table _ => "map"

def Cause.message : Cause → String
  | .mismatch got expected =>
      "invalid type: found " ++ gotText got ++
        ", expected " ++ expected.label
  | .negative n =>
      "invalid value signed int `" ++ integerText n ++
        "`, expected " ++ Part.depth.label

def Fault.message (fault : Fault) : String :=
  fault.cause.message

def Fault.location (fault : Fault) : String :=
  ".".intercalate fault.path

------------------------------------------------------------
-- Single Settings
------------------------------------------------------------

/- The table of the settings in a configuration. -/
def sectionName : String := "findargs"

def depthName : String := "max_depth"

def tiebreakerName : String := "cursor_tiebreaker"

def fail
    {α : Type}
    (path : List String)
    (cause : Cause) : Except Fault α :=
  .error ⟨cause, path⟩

/- A depth is a natural number of sixty-four bits. -/
def readDepth
    (path : List String)
    (value : Config) : Except Fault Nat :=
  match value with
  | .unsigned n =>
      if n < Nat.pow 2 64 then .ok n
      else fail path (.mismatch value .depth)
  | .signed n =>
      if n < -Int.pow 2 63 then
        fail path (.mismatch value .depth)
      else if n < 0 then fail path (.negative n)
      else .ok n.toNat
  | _ => fail path (.mismatch value .depth)

def readName
    (path : List String)
    (value : Config) : Except Fault String :=
  match value with
  | .text s => .ok s
  | _ => fail path (.mismatch value .name)

/- Read a setting, or keep its default where it is absent. -/
def readOr
    {α : Type}
    (fallback : α)
    (read : Config → Except Fault α) :
    Option Config → Except Fault α
  | none => .ok fallback
  | some value => read value

------------------------------------------------------------
-- Settings
------------------------------------------------------------

/- Settings by name, read in the order of the names. -/
def ofTable
    (entries : NameMap Config) : Except Fault Settings := do
  let tiebreaker ←
    readOr default.tiebreaker
      (readName [tiebreakerName, sectionName])
      (entries.lookup tiebreakerName)
  let maxDepth ←
    readOr default.maxDepth
      (readDepth [depthName, sectionName])
      (entries.lookup depthName)
  return ⟨maxDepth, tiebreaker⟩

/- Settings by position, the depth before the tiebreaker. -/
def ofList
    (items : List Config) : Except Fault Settings := do
  let maxDepth ←
    readOr default.maxDepth (readDepth ["0", sectionName])
      items[0]?
  let tiebreaker ←
    readOr default.tiebreaker (readName ["1", sectionName])
      items[1]?
  return ⟨maxDepth, tiebreaker⟩

def ofSection (value : Config) : Except Fault Settings :=
  match value with
  | .table entries => ofTable entries
  | .list items => ofList items
  | _ => fail [sectionName] (.mismatch value .settings)

/- The settings in a configuration. -/
def ofLayer (layer : Config.Layer) : Except Fault Settings :=
  match layer.bind fun entries => entries.lookup sectionName
  with
  | some value => ofSection value
  | none => .ok default

/- The settings of several sources, from the lowest up. -/
def ofLayers
    (layers : List Config.Layer) : Except Fault Settings :=
  ofLayer (Config.layered? layers)

/- The mark of the variables that hold settings. -/
def variableMark : String := "FINDARGS_"

/- The default settings as a configuration. -/
def defaultEntries : NameMap Config :=
  [(sectionName, .table
    [(tiebreakerName, .text default.tiebreaker),
      (depthName, .unsigned default.maxDepth)])]

/-
  The settings of a document and of the environment, which
  is above the document.
-/
def load
    (document : Option String)
    (environment : List (String × String)) :
    Except Fault Settings :=
  let fromDocument : Config.Layer :=
    match document with
    | none => some []
    | some text => Yaml.layer text
  let fromEnvironment :=
    Environment.layer variableMark sectionName environment
  ofLayers
    [some defaultEntries, fromDocument, some fromEnvironment]

end Settings

end Criteria
