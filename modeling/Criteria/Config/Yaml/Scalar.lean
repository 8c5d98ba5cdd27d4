import Criteria.Config.Yaml.Source
import Criteria.Text.Hex

/-
  This file reads the scalars of YAML documents: plain ones
  and ones in single or double quotes.

  A scalar may go on over several lines. The gaps around a
  line end do not belong to it: one line end stands for a
  space, and of several all but the first one are kept.

  Key definitions include:
    * `Yaml.Gap.text`
    * `Yaml.Fold`
    * `Yaml.takePlain?`
    * `Yaml.takeSingle?`
    * `Yaml.takeDouble?`
-/

------------------------------------------------------------
-- Gaps
------------------------------------------------------------

namespace Criteria

namespace Yaml

/-
  What stands between two words of a scalar. The first line
  end of a gap is absent where it was escaped.
-/
inductive Gap where
  | nothing
  | blanks (text : List Char)
  | breaks (first : Option Char) (more : List Char)

namespace Gap

/- The gap spans the end of a line. -/
def isBroken : Gap → Bool
  | .breaks _ _ => true
  | _ => false

def isNothing : Gap → Bool
  | .nothing => true
  | _ => false

/- A space or a tab more. After a line end it has no effect. -/
def addBlank
    (c : Char) : Gap → Gap
  | .nothing => .blanks [c]
  | .blanks text => .blanks (text ++ [c])
  | .breaks first more => .breaks first more

/- A line end more. Blanks before it have no effect. -/
def addBreak
    (c : Char) : Gap → Gap
  | .breaks first more => .breaks first (more ++ [c])
  | _ => .breaks (some c) []

/- What a gap contributes to the text of a scalar. -/
def text : Gap → List Char
  | .nothing => []
  | .blanks text => text
  | .breaks (some '\x0a') [] => [' ']
  | .breaks (some '\x0a') more => more
  | .breaks first more => first.toList ++ more

end Gap

------------------------------------------------------------
-- Folding
------------------------------------------------------------

/-
  A scalar as far as it is read: its characters, last first,
  the gap after them, and the place in the document.
-/
structure Fold where
  done : List Char
  gap : Gap
  line : Nat
  column : Nat

namespace Fold

def start (line column : Nat) : Fold :=
  ⟨[], .nothing, line, column⟩

/- The text that is read so far, with the gap at its end. -/
def flushed (f : Fold) : List Char :=
  f.gap.text.reverse ++ f.done

/- Go over a character that has no part in the text. -/
def skip (f : Fold) : Fold :=
  { f with column := f.column + 1 }

/- Go over a character, and add one to the text. -/
def push
    (f : Fold)
    (c : Char) : Fold :=
  { f.skip with done := c :: f.flushed, gap := .nothing }

def pushBlank
    (f : Fold)
    (c : Char) : Fold :=
  { f.skip with gap := f.gap.addBlank c }

def pushBreak
    (f : Fold)
    (c : Char) : Fold :=
  { f with
    gap := f.gap.addBreak c
    line := f.line + 1
    column := 0 }

/- Go over a line end that is escaped. -/
def escapeBreak (f : Fold) : Fold :=
  ⟨f.flushed, .breaks none [], f.line + 1, 0⟩

/- Go over the quote at the end. -/
def close (f : Fold) : Fold :=
  { f.skip with done := f.flushed, gap := .nothing }

/- The text of a scalar, without the gap after it. -/
def text (f : Fold) : String :=
  String.ofList f.done.reverse

/- The place is at a mark between documents. -/
def isAtMark
    (f : Fold)
    (text : List Char) : Bool :=
  f.column = 0 && isDocumentMark text

end Fold

------------------------------------------------------------
-- Plain Scalars
------------------------------------------------------------

/- Characters with a meaning of their own within brackets. -/
def isBracketChar (c : Char) : Bool :=
  ",[]\x7b\x7d".toList.contains c

/-
  A plain scalar goes on no further at the start of a text:
  at a line that is not indented, a mark, a comment, the
  colon of a key, and within brackets at one of theirs.
-/
def isPlainEnd
    (inBrackets : Bool)
    (margin : Nat)
    (f : Fold)
    (c : Char)
    (rest : List Char) : Bool :=
  (!inBrackets && f.gap.isBroken && f.column < margin) ||
    f.isAtMark (c :: rest) ||
    (c = '#' && !f.gap.isNothing) ||
    (c = ':' && isWordEnd rest) ||
    (inBrackets && isBracketChar c)

/-
  Read a plain scalar, up to the first character that is not
  of it or of the gap after it. `margin` is the column from
  which its further lines start.
-/
def takePlain?
    (inBrackets : Bool)
    (margin : Nat)
    (f : Fold)
    (text : List Char) : Option (Fold × List Char) :=
  match text with
  | [] => some (f, [])
  | c :: rest =>
      if isGap c then
        if c = '\x09' && f.gap.isBroken && f.column < margin
        then none
        else
          takePlain? inBrackets margin (f.pushBlank c) rest
      else if isBreak c then
        takePlain? inBrackets margin (f.pushBreak c) rest
      else if isPlainEnd inBrackets margin f c rest then
        some (f, c :: rest)
      else if inBrackets && c = ':' &&
          rest.head?.any (fun d => d = '?' || isBracketChar d)
      then none
      else takePlain? inBrackets margin (f.push c) rest

------------------------------------------------------------
-- Quoted Scalars
------------------------------------------------------------

/- Read to the single quote at the end. Two stand for one. -/
def takeSingle?
    (f : Fold)
    (text : List Char) : Option (Fold × List Char) :=
  match text with
  | [] => none
  | c :: rest =>
      if f.isAtMark (c :: rest) then none
      else if isGap c then takeSingle? (f.pushBlank c) rest
      else if isBreak c then takeSingle? (f.pushBreak c) rest
      else if c = '\'' then
        match rest with
        | '\'' :: more => takeSingle? (f.skip.push '\'') more
        | _ => some (f.close, rest)
      else takeSingle? (f.push c) rest

/- What an escape of one letter stands for. -/
def unescape? : Char → Option Char
  | '0' => some '\x00'
  | 'a' => some '\x07'
  | 'b' => some '\x08'
  | 't' => some '\x09'
  | '\x09' => some '\x09'
  | 'n' => some '\x0a'
  | 'v' => some '\x0b'
  | 'f' => some '\x0c'
  | 'r' => some '\x0d'
  | 'e' => some '\x1b'
  | ' ' => some ' '
  | '"' => some '"'
  | '/' => some '/'
  | '\\' => some '\\'
  | 'N' => some '\u0085'
  | '_' => some '\u00a0'
  | 'L' => some '\u2028'
  | 'P' => some '\u2029'
  | _ => none

/- How many digits the code of an escape has. -/
def codeLength? : Char → Option Nat
  | 'x' => some 2
  | 'u' => some 4
  | 'U' => some 8
  | _ => none

def codeChar? (digits : List Char) : Option Char :=
  (digits.mapM Hex.value?).bind fun values =>
    let code := values.foldl (fun n d => 16 * n + d.val) 0
    if code.isValidChar then some (Char.ofNat code) else none

/- What is open inside of double quotes. -/
inductive QuoteState where
  | plain
  | escape
  | code (left : Nat) (digits : List Char)

/- Read to the double quote at the end. -/
def takeDouble?
    (state : QuoteState)
    (f : Fold)
    (text : List Char) : Option (Fold × List Char) :=
  match text with
  | [] => none
  | c :: rest =>
      match state with
      | .plain =>
          if f.isAtMark (c :: rest) then none
          else if isGap c then
            takeDouble? .plain (f.pushBlank c) rest
          else if isBreak c then
            takeDouble? .plain (f.pushBreak c) rest
          else if c = '"' then some (f.close, rest)
          else if c = '\\' then
            takeDouble? .escape f.skip rest
          else takeDouble? .plain (f.push c) rest
      | .escape =>
          if isBreak c then
            takeDouble? .plain f.escapeBreak rest
          else
            match unescape? c, codeLength? c with
            | some d, _ => takeDouble? .plain (f.push d) rest
            | none, some n =>
                takeDouble? (.code (n - 1) []) f.skip rest
            | none, none => none
      | .code (left + 1) digits =>
          takeDouble? (.code left (digits ++ [c])) f.skip rest
      | .code 0 digits =>
          match codeChar? (digits ++ [c]) with
          | some d => takeDouble? .plain (f.push d) rest
          | none => none

end Yaml

end Criteria
