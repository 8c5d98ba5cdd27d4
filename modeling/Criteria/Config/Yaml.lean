import Criteria.Config.Yaml.Token
import Criteria.Config.Yaml.Word

/-
  This file reads configurations from YAML documents of
  mappings, sequences and scalars.

  Blocks and brackets build the same values. A key is a
  scalar, and of several entries with one key the last one
  stays.

  Key definitions include:
    * `Yaml.takeNode?`
    * `Yaml.ofTokens?`
    * `Yaml.layer`
-/

------------------------------------------------------------
-- Parts
------------------------------------------------------------

namespace Criteria

namespace Yaml

def scalarValue
    (isPlain : Bool)
    (text : String) : Config :=
  if isPlain then wordValue text else .text text

/- Tokens before which a part of a block mapping is empty. -/
def endsBlockPart : Token → Bool
  | .key | .value | .blockEnd => true
  | _ => false

/- Tokens before which a part of brackets is empty. -/
def endsBracketPart : Token → Bool
  | .value | .comma | .bracketClose | .braceClose => true
  | _ => false

/- The text of a key. An absent key is empty. -/
def takeKey?
    (isEnd : Token → Bool)
    (tokens : List Token) : Option (String × List Token) :=
  match tokens with
  | .scalar _ text :: rest => some (text, rest)
  | token :: rest =>
      if isEnd token then some ("", token :: rest) else none
  | [] => none

/- The tokens of the next part in brackets, after a comma. -/
def afterComma?
    (isFirst : Bool)
    (tokens : List Token) : Option (List Token) :=
  if isFirst then some tokens
  else
    match tokens with
    | .comma :: rest => some rest
    | _ => none

------------------------------------------------------------
-- Nodes
------------------------------------------------------------

/- The most collections that lie inside each other. -/
def mostNested : Nat := 128

mutual

/-
  The value at the start of some tokens. `steps` bounds the
  values and parts that are read, `levels` the collections
  inside each other. Within a mapping the entries of a
  sequence need no block of their own.
-/
def takeNode?
    (steps levels : Nat)
    (inMapping : Bool)
    (tokens : List Token) : Option (Config × List Token) :=
  match steps with
  | 0 => none
  | steps + 1 =>
      match tokens, levels with
      | .scalar isPlain text :: rest, _ =>
          some (scalarValue isPlain text, rest)
      | .mappingStart :: rest, levels + 1 =>
          takeEntries? steps levels [] rest
      | .sequenceStart :: rest, levels + 1 =>
          takeItems? steps levels true [] rest
      | .entry :: rest, levels + 1 =>
          if inMapping then
            takeItems? steps levels false [] (.entry :: rest)
          else none
      | .bracketOpen :: rest, levels + 1 =>
          takeBracketItems? steps levels true [] rest
      | .braceOpen :: rest, levels + 1 =>
          takeBracketEntries? steps levels true [] rest
      | _, _ => none

/- The value after a key, which is empty if it is absent. -/
def takeValue?
    (steps levels : Nat)
    (isEnd : Token → Bool)
    (tokens : List Token) : Option (Config × List Token) :=
  match steps with
  | 0 => none
  | steps + 1 =>
      match tokens with
      | .value :: token :: rest =>
          if isEnd token then some (.empty, token :: rest)
          else takeNode? steps levels true (token :: rest)
      | .value :: [] => none
      | _ => some (.empty, tokens)

/- The entries of a mapping, up to the end of its block. -/
def takeEntries?
    (steps levels : Nat)
    (done : NameMap Config)
    (tokens : List Token) : Option (Config × List Token) :=
  match steps with
  | 0 => none
  | steps + 1 =>
      match tokens with
      | .key :: rest => do
          let (key, rest) ← takeKey? endsBlockPart rest
          let (value, rest) ←
            takeValue? steps levels endsBlockPart rest
          takeEntries? steps levels
            (NameMap.insert key value done) rest
      | .blockEnd :: rest => some (.table done, rest)
      | _ => none

/-
  The items of a sequence, up to the end of its block or, if
  it has none, to what is no item.
-/
def takeItems?
    (steps levels : Nat)
    (inBlock : Bool)
    (done : List Config)
    (tokens : List Token) : Option (Config × List Token) :=
  match steps with
  | 0 => none
  | steps + 1 =>
      match tokens with
      | .entry :: token :: rest =>
          if token = .entry || token = .blockEnd ||
              (!inBlock && endsBlockPart token) then
            takeItems? steps levels inBlock (.empty :: done)
              (token :: rest)
          else do
            let (item, rest) ←
              takeNode? steps levels false (token :: rest)
            takeItems? steps levels inBlock (item :: done)
              rest
      | .entry :: [] => none
      | .blockEnd :: rest =>
          if inBlock then some (.list done.reverse, rest)
          else some (.list done.reverse, .blockEnd :: rest)
      | _ =>
          if inBlock then none
          else some (.list done.reverse, tokens)

/-
  The items up to a closing bracket. An item with a key is a
  mapping of one entry.
-/
def takeBracketItems?
    (steps levels : Nat)
    (isFirst : Bool)
    (done : List Config)
    (tokens : List Token) : Option (Config × List Token) :=
  match steps with
  | 0 => none
  | steps + 1 =>
      match tokens with
      | .bracketClose :: rest =>
          some (.list done.reverse, rest)
      | _ => do
          match ← afterComma? isFirst tokens with
          | .bracketClose :: rest =>
              return (.list done.reverse, rest)
          | .key :: .scalar _ key :: rest =>
              if levels = 0 then none
              else
                let (value, rest) ←
                  takeValue? steps (levels - 1)
                    endsBracketPart rest
                takeBracketItems? steps levels false
                  (.table [(key, value)] :: done) rest
          | rest =>
              let (item, rest) ←
                takeNode? steps levels false rest
              takeBracketItems? steps levels false
                (item :: done) rest

/- The entries up to a closing brace. -/
def takeBracketEntries?
    (steps levels : Nat)
    (isFirst : Bool)
    (done : NameMap Config)
    (tokens : List Token) : Option (Config × List Token) :=
  match steps with
  | 0 => none
  | steps + 1 =>
      match tokens with
      | .braceClose :: rest => some (.table done, rest)
      | _ => do
          match ← afterComma? isFirst tokens with
          | .braceClose :: rest => return (.table done, rest)
          | .key :: rest =>
              let (key, rest) ← takeKey? endsBracketPart rest
              let (value, rest) ←
                takeValue? steps levels endsBracketPart rest
              takeBracketEntries? steps levels false
                (NameMap.insert key value done) rest
          | .scalar _ key :: rest =>
              takeBracketEntries? steps levels false
                (NameMap.insert key .empty done) rest
          | _ => none

end

------------------------------------------------------------
-- Documents
------------------------------------------------------------

/- Every value and part takes one token, and shares it once. -/
def stepsFor (tokens : List Token) : Nat :=
  3 * tokens.length + 3

/- The value of a document after its mark, if it has one. -/
def takeContent?
    (isMarked : Bool)
    (tokens : List Token) : Option (Config × List Token) :=
  let isEmpty :=
    tokens.head?.all fun token =>
      token = .documentStart || token = .documentEnd
  if isMarked && isEmpty then some (.table [], tokens)
  else takeNode? (stepsFor tokens) mostNested false tokens

/- The value of a single document. -/
def ofTokens? (tokens : List Token) : Option Config := do
  let (value, rest) ←
    match tokens with
    | [] => some (.table [], [])
    | .documentStart :: rest => takeContent? true rest
    | _ => takeContent? false tokens
  if rest.all (· = .documentEnd) then value else none

/- The configuration of a document that is a mapping. -/
def layer (document : String) : Config.Layer := do
  (← ofTokens? (← tokens? document)).entries?

end Yaml

end Criteria
