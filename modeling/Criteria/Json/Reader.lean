import Criteria.Json.Token

/-
  This file reads JSON values from text.

  The tokens are read one at a time. The containers that are
  open form a stack, and a value that is complete is placed
  in the innermost of them. A member whose name was already
  given replaces the earlier one in its place.

  Key definitions include:
    * `Json.setMember`
    * `Reader.feed`
    * `Json.parse?`
-/

------------------------------------------------------------
-- Open Containers
------------------------------------------------------------

namespace Criteria

namespace Json

/- Give a member a value, in its place or at the end. -/
def setMember
    (name : String)
    (value : Json) : Members → Members
  | [] => [(name, value)]
  | (other, old) :: rest =>
      if other = name then (name, value) :: rest
      else (other, old) :: setMember name value rest

/- A container that is open, with what it holds so far. -/
inductive Frame where
  | array (items : List Json)
  | object (members : Members) (name : String)
deriving Repr

/-
  What may come next: a value, the first item or the end of
  an array, a name, the first name or the end of an object,
  a colon, or a comma or the end of the innermost container.
-/
inductive Expected where
  | value
  | firstItem
  | name
  | firstName
  | colon
  | separator
deriving DecidableEq, Repr

structure Reader where
  frames : List Frame
  expected : Expected
  result : Option Json
deriving Repr

namespace Reader

def start : Reader :=
  ⟨[], .value, none⟩

/- Place a complete value where it belongs. -/
def place
    (frames : List Frame)
    (value : Json) : Reader :=
  match frames with
  | [] => ⟨[], .separator, some value⟩
  | .array items :: rest =>
      ⟨.array (value :: items) :: rest, .separator, none⟩
  | .object members name :: rest =>
      ⟨.object (setMember name value members) name :: rest,
        .separator, none⟩

/- The value of a word. -/
def wordValue? (chars : List Char) : Option Json :=
  if chars = "null".toList then some .null
  else if chars = "true".toList then some (.bool true)
  else if chars = "false".toList then some (.bool false)
  else (Number.ofWord? chars).map .number

/- A token where a value begins. -/
def openValue?
    (frames : List Frame)
    (token : Token) : Option Reader :=
  match token with
  | .openBrace =>
      some ⟨.object [] "" :: frames, .firstName, none⟩
  | .openBracket =>
      some ⟨.array [] :: frames, .firstItem, none⟩
  | .string s => some (place frames (.string s))
  | .word chars => (wordValue? chars).map (place frames)
  | _ => none

/- A token where a name is due. -/
def takeName?
    (frames : List Frame)
    (token : Token) : Option Reader :=
  match token, frames with
  | .string s, .object members _ :: rest =>
      some ⟨.object members s :: rest, .colon, none⟩
  | _, _ => none

/- A token that closes the innermost container. -/
def close?
    (frames : List Frame)
    (token : Token) : Option Reader :=
  match token, frames with
  | .closeBracket, .array items :: rest =>
      some (place rest (.array items.reverse))
  | .closeBrace, .object members _ :: rest =>
      some (place rest (.object members))
  | _, _ => none

/- What a comma asks for. -/
def continue?
    (frames : List Frame)
    (token : Token) : Option Reader :=
  match token, frames with
  | .comma, .array _ :: _ => some ⟨frames, .value, none⟩
  | .comma, .object _ _ :: _ => some ⟨frames, .name, none⟩
  | _, _ => none

/- One more token, or `none` if no text goes on so. -/
def feed
    (reader : Reader)
    (token : Token) : Option Reader :=
  let frames := reader.frames
  match reader.expected with
  | .value => openValue? frames token
  | .firstItem =>
      (close? frames token).or (openValue? frames token)
  | .name => takeName? frames token
  | .firstName =>
      (close? frames token).or (takeName? frames token)
  | .colon =>
      if token = .colon then some ⟨frames, .value, none⟩
      else none
  | .separator =>
      (close? frames token).or (continue? frames token)

end Reader

------------------------------------------------------------
-- Reading
------------------------------------------------------------

/- The value that a text writes. -/
def parse? (text : String) : Option Json := do
  let tokens ← Token.ofChars? text.toList
  let reader ← tokens.foldlM Reader.feed Reader.start
  reader.result

end Json

end Criteria
