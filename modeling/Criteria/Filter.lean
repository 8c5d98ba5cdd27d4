import Criteria.Error

/-
  This file defines filters, the parsed form of `where`, and
  reads them from JSON.

  A filter is a list of entries, each a field name or a
  connective with its content. The content of an entry is
  decided once, when it is read. Every object in a filter is
  one level deeper than the object around it, and levels are
  bounded.

  Key definitions include:
    * `Filter`
    * `Filter.Operators`
    * `Operators.ofMembers`
    * `Filter.ofMembers`
    * `Filter.ofJson`
-/

------------------------------------------------------------
-- Filters
------------------------------------------------------------

namespace Criteria

namespace Filter

mutual

/- What an operator is applied to. -/
inductive Operand where
  | value (v : Json)
  | nested (operators : Operators)
deriving Repr

/- The operators applied to one field, in order. -/
structure Operators where
  mode : MatchMode
  entries : List (Operator × Operand)
deriving Repr

end

/- What an entry of a filter is about. -/
inductive Key where
  | field (name : String)
  | connective (op : Connective)
deriving DecidableEq, Repr

end Filter

mutual

/- What an entry of a filter holds. -/
inductive Filter.Content where
  | null
  | literal (v : Json)
  | operators (operators : Filter.Operators)
  | branches (items : List Filter)
  | branch (item : Filter)
deriving Repr

structure Filter where
  entries : List (Filter.Key × Filter.Content)
deriving Repr

end

namespace Filter

def isEmpty (f : Filter) : Bool :=
  f.entries.isEmpty

------------------------------------------------------------
-- Levels
------------------------------------------------------------

/- Whether a level, counted from one, is within the bound. -/
def checkDepth
    (most depth : Nat) : Except Error Unit :=
  if most < depth then .error (.nestingTooDeep most)
  else .ok ()

------------------------------------------------------------
-- Reading Operators
------------------------------------------------------------

namespace Operators

def modeOf (value : Json) : Except Error MatchMode :=
  let mode? :=
    match value with
    | .string word => MatchMode.ofWord? word
    | _ => none
  match mode? with
  | some mode => .ok mode
  | none => .error (.invalidOperand MatchMode.key (.mode value))

/- The mode that an object gives, or that of the one around. -/
def modeIn
    (inherited : MatchMode)
    (members : Json.Members) : Except Error MatchMode :=
  match members.lookup MatchMode.key with
  | some value => modeOf value
  | none => .ok inherited

/- The members of an object that are operators. -/
def operatorMembers
    (members : Json.Members) : Json.Members :=
  members.filter fun member => member.1 ≠ MatchMode.key

def operatorOf (keyword : String) : Except Error Operator :=
  match Operator.ofKeyword? keyword with
  | some op => .ok op
  | none => .error (.unsupportedOperator keyword)

/-
  Read one operator. Only `not` has objects as operands, and
  `read` reads them.
-/
def entryOf
    (read : Json.Members → Except Error Operators)
    (member : String × Json) :
    Except Error (Operator × Operand) := do
  let op ← operatorOf member.1
  match op, member.2 with
  | .not, .object inner => return (op, .nested (← read inner))
  | _, value => return (op, .value value)

/-
  Read an operator object with `levels` levels left, its own
  included.
-/
def ofMembers
    (most : Nat)
    (levels : Nat)
    (inherited : MatchMode)
    (members : Json.Members) : Except Error Operators :=
  match levels with
  | 0 => .error (.nestingTooDeep most)
  | levels + 1 => do
      let mode ← modeIn inherited members
      let entries ← (operatorMembers members).mapM
        (entryOf (ofMembers most levels mode))
      return ⟨mode, entries⟩

/- Read an operator object that stands alone. -/
def parse
    (most : Nat)
    (members : Json.Members) : Except Error Operators :=
  ofMembers most most .sensitive members

end Operators

------------------------------------------------------------
-- Reading Filters
------------------------------------------------------------

/-
  The content of a field, where `read` reads an object. An
  array is refused as an operator of the name of the field.
-/
def fieldContent
    (read : Json.Members → Except Error Operators)
    (name : String)
    (value : Json) : Except Error Content :=
  match value with
  | .null => .ok .null
  | .object members => return .operators (← read members)
  | .array _ => .error (.unsupportedOperator name)
  | _ => .ok (.literal value)

/- An element under a connective, which has to be an object. -/
def element
    (read : Json.Members → Except Error Filter)
    (op : Connective)
    (item : Json) : Except Error Filter :=
  match item with
  | .object members => read members
  | _ => .error (.unsupportedShape (.element op item))

/- The content of a connective, an object or an array. -/
def connectiveContent
    (read : Json.Members → Except Error Filter)
    (op : Connective)
    (value : Json) : Except Error Content :=
  match value with
  | .array items =>
      return .branches (← items.mapM (element read op))
  | .object members => return .branch (← read members)
  | _ => .error (.unsupportedShape (.branch op value))

def entryOf
    (readOperators : Json.Members → Except Error Operators)
    (readFilter : Json.Members → Except Error Filter)
    (member : String × Json) :
    Except Error (Key × Content) :=
  match Connective.ofWord? member.1 with
  | some op =>
      return (.connective op,
        ← connectiveContent readFilter op member.2)
  | none =>
      return (.field member.1,
        ← fieldContent readOperators member.1 member.2)

/-
  Read the members of a filter object with `levels` levels
  left, its own included. The objects in it are one level
  deeper, whether they stand in an array or not.
-/
def ofMembers
    (most : Nat)
    (levels : Nat)
    (members : Json.Members) : Except Error Filter :=
  match levels with
  | 0 => .error (.nestingTooDeep most)
  | levels + 1 => do
      let entries ← members.mapM
        (entryOf (Operators.ofMembers most levels .sensitive)
          (ofMembers most levels))
      return ⟨entries⟩

/- Read the members of a filter. -/
def parse
    (most : Nat)
    (members : Json.Members) : Except Error Filter :=
  ofMembers most most members

/- Read a value that has to be a filter. -/
def ofJson
    (most : Nat)
    (value : Json) : Except Error Filter :=
  match value with
  | .object members => parse most members
  | _ => .error (.unsupportedShape (.filter value))

end Filter

end Criteria
