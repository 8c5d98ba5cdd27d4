import Criteria.Config
import Criteria.Config.Number
import Criteria.Text.Blank
import Criteria.Text.Hex

/-
  This file reads configurations from environment variables.

  The name of a variable, without its mark and in lower case,
  is a path of names with points between them. Its value is
  a word, a quoted text, a list or a table; a value that is
  none of these is the text itself.

  Key definitions include:
    * `Environment.value`
    * `Environment.path?`
    * `Environment.layer`
-/

------------------------------------------------------------
-- Words
------------------------------------------------------------

namespace Criteria

namespace Environment

/- Characters at which a word ends. -/
def isSeparator (c : Char) : Bool :=
  c = ',' || c = '\x7b' || c = '\x7d' || c = '[' || c = ']'

/- Characters of a name in a table. -/
def isNameChar (c : Char) : Bool :=
  c.isAlphanum || c = '_' || c = '-'

def skipSpaces (text : List Char) : List Char :=
  text.dropWhile Text.isAsciiBlank

/- A word is a number where it reads as one. -/
def wordValue (word : List Char) : Config :=
  let float? :=
    if word.contains '.' then Numeral.float? word else none
  match float? with
  | some x => .float x
  | none =>
      match Numeral.unsigned? word with
      | some n => .unsigned n
      | none =>
          match Numeral.signed? word with
          | some n => .signed n
          | none => .text (String.ofList word)

------------------------------------------------------------
-- Quoted Texts
------------------------------------------------------------

/- The character of a code in hexadecimal digits. -/
def codeChar? (digits : List Char) : Option Char :=
  (digits.mapM Hex.value?).bind fun values =>
    let code := values.foldl (fun n d => 16 * n + d.val) 0
    if code.isValidChar then some (Char.ofNat code) else none

/- What an escape of one letter stands for. -/
def unescape? : Char → Option Char
  | '"' => some '"'
  | '\\' => some '\\'
  | 'b' => some '\x08'
  | 'f' => some '\x0c'
  | 'n' => some '\x0a'
  | 'r' => some '\x0d'
  | 't' => some '\x09'
  | _ => none

/- Characters that a quoted text holds as they are. -/
def isQuotable (c : Char) : Bool :=
  c = '\x09' || (' ' ≤ c && c ≠ '\x7f')

/- Characters of a quoted text before its first escape. -/
def isQuotedPlainly (c : Char) : Bool :=
  isQuotable c && c ≠ '"' && c ≠ '\\'

/- What is open inside of a quoted text. -/
inductive QuoteState where
  | plain
  | escape
  | code (left : Nat) (digits : List Char)

/-
  The characters up to the quote that ends a text, from an
  escape or a later place on, and what follows it.
-/
def takeEscaped?
    (state : QuoteState)
    (done : List Char) :
    List Char → Option (String × List Char)
  | [] => none
  | c :: rest =>
      match state with
      | .plain =>
          if c = '"' then
            some (String.ofList done.reverse, rest)
          else if c = '\\' then takeEscaped? .escape done rest
          else if isQuotable c then
            takeEscaped? .plain (c :: done) rest
          else none
      | .escape =>
          if c = 'u' then takeEscaped? (.code 3 []) done rest
          else if c = 'U' then
            takeEscaped? (.code 7 []) done rest
          else
            match unescape? c with
            | some d => takeEscaped? .plain (d :: done) rest
            | none => none
      | .code left digits =>
          match left with
          | left + 1 =>
              takeEscaped? (.code left (digits ++ [c])) done
                rest
          | 0 =>
              match codeChar? (digits ++ [c]) with
              | some d => takeEscaped? .plain (d :: done) rest
              | none => none

/- The characters at the start of a text, within some bytes. -/
def withinBytes
    (bytes : Nat) : List Char → List Char
  | [] => []
  | c :: rest =>
      if c.utf8Size ≤ bytes then
        c :: withinBytes (bytes - c.utf8Size) rest
      else []

/-
  The text after an opening quote, up to the closing one, and
  what follows that. A text with an escape keeps as many
  bytes before the first one as it has characters there.
-/
def takeQuoted?
    (text : List Char) : Option (String × List Char) :=
  let lead := text.takeWhile isQuotedPlainly
  match text.drop lead.length with
  | '"' :: rest => some (String.ofList lead, rest)
  | '\\' :: rest =>
      takeEscaped? .escape
        (withinBytes lead.length lead).reverse rest
  | _ => none

/- A name in a table, quoted or not, with spaces around it. -/
def takeName?
    (text : List Char) : Option (String × List Char) :=
  let start := skipSpaces text
  let taken :=
    match start with
    | '"' :: rest => takeQuoted? rest
    | _ =>
        let name := start.takeWhile isNameChar
        if name = [] then none
        else some (String.ofList name, start.drop name.length)
  taken.map fun result => (result.1, skipSpaces result.2)

------------------------------------------------------------
-- Values
------------------------------------------------------------

/- The text after a word that must come next. -/
def dropWord?
    (word : String)
    (text : List Char) : Option (List Char) :=
  if word.toList.isPrefixOf text then
    some (text.drop word.length)
  else none

mutual

/-
  The value at the start of a text. `steps` bounds the items
  and brackets that are read.
-/
def takeValue?
    (steps : Nat)
    (text : List Char) : Option (Config × List Char) :=
  match steps with
  | 0 => none
  | steps + 1 => do
      let start := skipSpaces text
      let (value, rest) ←
        match dropWord? "true" start, dropWord? "false" start with
        | some rest, _ => some (Config.bool true, rest)
        | _, some rest => some (Config.bool false, rest)
        | none, none =>
            match start with
            | '\x7b' :: rest =>
                (takeEntries? steps [] rest).map fun r =>
                  (Config.table r.1, r.2)
            | '[' :: rest =>
                (takeItems? steps [] rest).map fun r =>
                  (Config.list r.1, r.2)
            | '"' :: rest =>
                (takeQuoted? rest).map fun r =>
                  (Config.text r.1, r.2)
            | '\'' :: c :: '\'' :: rest =>
                some (Config.text (String.ofList [c]), rest)
            | '\'' :: _ => none
            | _ =>
                let word := start.takeWhile fun c =>
                  !isSeparator c
                some (wordValue (Text.trim word),
                  start.drop word.length)
      some (value, skipSpaces rest)

/- The items up to the bracket that ends a list. -/
def takeItems?
    (steps : Nat)
    (done : List Config)
    (text : List Char) :
    Option (List Config × List Char) :=
  match steps with
  | 0 => none
  | steps + 1 =>
      match text with
      | ']' :: rest => some (done.reverse, rest)
      | _ => do
          let (value, rest) ← takeValue? steps text
          match rest with
          | ',' :: rest => takeItems? steps (value :: done) rest
          | ']' :: rest => some ((value :: done).reverse, rest)
          | _ => none

/- The entries up to the brace that ends a table. -/
def takeEntries?
    (steps : Nat)
    (done : NameMap Config)
    (text : List Char) :
    Option (NameMap Config × List Char) :=
  match steps with
  | 0 => none
  | steps + 1 =>
      match text with
      | '\x7d' :: rest => some (done, rest)
      | _ => do
          let (name, rest) ← takeName? text
          let rest ← dropWord? "=" rest
          let (value, rest) ← takeValue? steps rest
          let done := NameMap.insert name value done
          match rest with
          | ',' :: rest => takeEntries? steps done rest
          | '\x7d' :: rest => some (done, rest)
          | _ => none

end

/- Every item and bracket takes one character at least. -/
def stepsFor (text : List Char) : Nat :=
  2 * text.length + 2

/- The value that a text writes, or the text itself. -/
def value (s : String) : Config :=
  match takeValue? (stepsFor s.toList) s.toList with
  | some (value, []) => value
  | _ => .text s

------------------------------------------------------------
-- Variables
------------------------------------------------------------

/- The path of a variable, if its name has the mark. -/
def path?
    (mark : String)
    (name : String) : Option (List String) :=
  let trimmed := Text.trim name.toList
  let start := trimmed.take mark.length
  if start.map Char.toLower =
      mark.toList.map Char.toLower then
    let rest := trimmed.drop mark.length
    let path := (rest.map Char.toLower).splitOn '.'
    if path.contains [] then none
    else some (path.map String.ofList)
  else none

/-
  The configuration of all variables with a mark, placed
  under the name of a table. Later variables are above
  earlier ones.
-/
def layer
    (mark : String)
    (root : String)
    (assignments : List (String × String)) :
    NameMap Config :=
  assignments.foldl (fun done entry =>
    match path? mark entry.1 with
    | none => done
    | some path =>
        Config.mergeEntries done
          [(root, Config.nest path (value entry.2))]) []

end Environment

end Criteria
