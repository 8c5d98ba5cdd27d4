/-
  This file defines the characters of YAML documents: which
  ones a document may hold, which ones end a line or leave a
  gap within it, and the marks between documents.

  Key definitions include:
    * `Yaml.isAllowed`
    * `Yaml.isBreak`
    * `Yaml.source?`
-/

------------------------------------------------------------
-- Characters
------------------------------------------------------------

namespace Criteria

namespace Yaml

/-
  Characters that a document may hold: no control characters
  but the tab and those that end a line, and no code points
  that stand for no character.
-/
def isAllowed (c : Char) : Bool :=
  let code := c.toNat
  code = 0x09 || code = 0x0a || code = 0x0d ||
    (0x20 ≤ code && code ≤ 0x7e) || code = 0x85 ||
    (0xa0 ≤ code && code ≤ 0xfffd) || 0x10000 ≤ code

/- Characters that end a line, once line ends are unified. -/
def isBreak (c : Char) : Bool :=
  c = '\x0a' || c = '\u2028' || c = '\u2029'

/- Characters that part words on a line. -/
def isGap (c : Char) : Bool :=
  c = ' ' || c = '\x09'

/- No word goes on at the start of a text. -/
def isWordEnd (text : List Char) : Bool :=
  text.head?.all fun c => isGap c || isBreak c

/-
  The mark that may stand at the start of a line. It takes up
  a column there.
-/
def byteOrderMark : Char := '\ufeff'

/- Three dashes before a document, or three points after it. -/
def isDocumentMark (text : List Char) : Bool :=
  match text with
  | a :: b :: c :: rest =>
      (a = '-' || a = '.') && b = a && c = a && isWordEnd rest
  | _ => false

------------------------------------------------------------
-- Documents
------------------------------------------------------------

/- Write one character for each end of a line. -/
def unifyBreaks : List Char → List Char
  | [] => []
  | '\x0d' :: '\x0a' :: rest => '\x0a' :: unifyBreaks rest
  | c :: rest =>
      let unified :=
        if c = '\x0d' ∨ c = '\u0085' then '\x0a' else c
      unified :: unifyBreaks rest

/- The characters of a document, if it may hold them all. -/
def source? (document : String) : Option (List Char) :=
  let text := document.toList
  if text.all isAllowed then some (unifyBreaks text)
  else none

end Yaml

end Criteria
