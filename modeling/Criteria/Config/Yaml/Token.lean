import Criteria.Config.Yaml.Scalar

/-
  This file takes YAML documents apart into tokens.

  Blocks are told apart by how far they are indented: the
  columns of the open ones are kept, and a token further to
  the left ends those to the right of it. A scalar is a key
  if a colon comes after it on its line.

  Directives, anchors, aliases, tags and block scalars are
  not read.

  Key definitions include:
    * `Yaml.Token`
    * `Yaml.Scanner.scalar?`
    * `Yaml.Scanner.token?`
    * `Yaml.tokens?`
-/

------------------------------------------------------------
-- Tokens
------------------------------------------------------------

namespace Criteria

namespace Yaml

inductive Token where
  | documentStart
  | documentEnd
  | mappingStart
  | sequenceStart
  | blockEnd
  | key
  | value
  | entry
  | bracketOpen
  | bracketClose
  | braceOpen
  | braceClose
  | comma
  | scalar (isPlain : Bool) (text : String)
deriving DecidableEq, Repr

------------------------------------------------------------
-- Scanners
------------------------------------------------------------

/-
  What is left of a document, and what is open there: the
  columns of the blocks, innermost first, and the number of
  brackets. `keyAllowed` tells if a key may come next.
-/
structure Scanner where
  rest : List Char
  line : Nat
  column : Nat
  blocks : List Nat
  brackets : Nat
  keyAllowed : Bool

namespace Scanner

def start (source : List Char) : Scanner :=
  ⟨source, 0, 0, [], 0, true⟩

def inBrackets (s : Scanner) : Bool :=
  0 < s.brackets

/- The scanner after some characters of its line. -/
def advance
    (s : Scanner)
    (count : Nat) : Scanner :=
  { s with
    rest := s.rest.drop count
    column := s.column + count }

/-
  Go over gaps, line ends and comments. A key may start the
  next line of a block, and no tab may stand where one may.
-/
def settle
    (s : Scanner)
    (inComment : Bool)
    (text : List Char) : Scanner :=
  match text with
  | [] => { s with rest := [] }
  | c :: rest =>
      let next := { s with column := s.column + 1 }
      if isBreak c then
        settle
          { s with
            line := s.line + 1
            column := 0
            keyAllowed := s.keyAllowed || !s.inBrackets }
          false rest
      else if inComment || c = '#' then settle next true rest
      else if c = ' ' ||
          (c = '\x09' && (s.inBrackets || !s.keyAllowed)) ||
          (c = byteOrderMark && s.column = 0) then
        settle next false rest
      else { s with rest := c :: rest }

/- End the blocks that the place is to the left of. -/
def endBlocks (s : Scanner) : List Token × Scanner :=
  let isRight := fun block => decide (s.column < block)
  if s.inBrackets then ([], s)
  else
    ((s.blocks.takeWhile isRight).map fun _ => .blockEnd,
      { s with blocks := s.blocks.dropWhile isRight })

def endAllBlocks (s : Scanner) : List Token × Scanner :=
  if s.inBrackets then ([], s)
  else
    (s.blocks.map fun _ => .blockEnd, { s with blocks := [] })

/- Start a block here, unless it is open already. -/
def startBlock
    (s : Scanner)
    (token : Token) : List Token × Scanner :=
  if !s.inBrackets && s.blocks.head?.all (· < s.column) then
    ([token], { s with blocks := s.column :: s.blocks })
  else ([], s)

/- Only a key can come here, as others of its block do. -/
def isKeyDue (s : Scanner) : Bool :=
  s.keyAllowed && !s.inBrackets &&
    s.blocks.head? = some s.column

------------------------------------------------------------
-- Scalars
------------------------------------------------------------

/- A colon that ends a key is at the start of a text. -/
def isKeyEnd
    (s : Scanner)
    (text : List Char) : Bool :=
  match text with
  | ':' :: rest => s.inBrackets || isWordEnd rest
  | _ => false

/- The most characters from a key to its colon. -/
def keyWidth : Nat := 1024

/-
  The tokens of a scalar that starts here, and of the key
  that it may be. `f` is the scalar and `rest` follows it.
-/
def scalar?
    (s : Scanner)
    (isPlain : Bool)
    (f : Fold)
    (rest : List Char) : Option (List Token × Scanner) :=
  let token := Token.scalar isPlain f.text
  let gap := (rest.takeWhile isGap).length
  let after := rest.drop gap
  if s.keyAllowed && f.line = s.line &&
      f.column + gap ≤ s.column + keyWidth &&
      s.isKeyEnd after then
    let (opening, s) := s.startBlock .mappingStart
    some (opening ++ [.key, token, .value],
      { s with
        rest := after.drop 1
        column := f.column + gap + 1
        keyAllowed := false })
  else if s.isKeyDue then none
  else
    some ([token],
      { s with
        rest := rest
        line := f.line
        column := f.column
        keyAllowed := f.gap.isBroken })

/- The column from which lines within the block start. -/
def margin (s : Scanner) : Nat :=
  match s.blocks with
  | [] => 0
  | block :: _ => block + 1

def plain? (s : Scanner) : Option (List Token × Scanner) := do
  let (f, rest) ←
    takePlain? s.inBrackets s.margin
      (.start s.line s.column) s.rest
  s.scalar? true f rest

/- A scalar in the quotes that its first character tells. -/
def quoted?
    (s : Scanner)
    (quote : Char) : Option (List Token × Scanner) := do
  let f := (Fold.start s.line s.column).skip
  let text := s.rest.drop 1
  let (f, rest) ←
    if quote = '"' then takeDouble? .plain f text
    else takeSingle? f text
  s.scalar? false f rest

------------------------------------------------------------
-- Indicators
------------------------------------------------------------

/- A mark between documents ends all that is open. -/
def documentMark
    (s : Scanner)
    (token : Token) : List Token × Scanner :=
  let (ends, s) := s.endAllBlocks
  (ends ++ [token], { s.advance 3 with keyAllowed := false })

/- An indicator at the start of an entry or of a long key. -/
def indicator?
    (s : Scanner)
    (block token : Token) : Option (List Token × Scanner) :=
  if s.inBrackets then
    some ([token], { s.advance 1 with keyAllowed := false })
  else if s.keyAllowed then
    let (opening, s) := s.startBlock block
    some (opening ++ [token], s.advance 1)
  else none

def openBracket?
    (s : Scanner)
    (token : Token) : Option (List Token × Scanner) :=
  if s.isKeyDue then none
  else
    some ([token],
      { s.advance 1 with
        brackets := s.brackets + 1
        keyAllowed := true })

def closeBracket?
    (s : Scanner)
    (token : Token) : Option (List Token × Scanner) :=
  if s.inBrackets then
    some ([token],
      { s.advance 1 with
        brackets := s.brackets - 1
        keyAllowed := false })
  else none

def comma? (s : Scanner) : Option (List Token × Scanner) :=
  if s.inBrackets then
    some ([.comma], { s.advance 1 with keyAllowed := true })
  else none

/- Characters that no plain scalar begins with. -/
def isIndicator (c : Char) : Bool :=
  "#&*!|>%@`".toList.contains c || isGap c

/- The tokens at a place that is not in a gap. -/
def token? (s : Scanner) : Option (List Token × Scanner) :=
  match s.rest with
  | [] => none
  | c :: rest =>
      if s.column = 0 && isDocumentMark s.rest then
        some (s.documentMark
          (if c = '-' then .documentStart else .documentEnd))
      else
        match c with
        | '[' => s.openBracket? .bracketOpen
        | ']' => s.closeBracket? .bracketClose
        | '\x7b' => s.openBracket? .braceOpen
        | '\x7d' => s.closeBracket? .braceClose
        | ',' => s.comma?
        | '\'' => s.quoted? c
        | '"' => s.quoted? c
        | '-' =>
            if !isWordEnd rest then s.plain?
            else if s.inBrackets then none
            else s.indicator? .sequenceStart .entry
        | '?' =>
            if s.inBrackets || isWordEnd rest then
              s.indicator? .mappingStart .key
            else s.plain?
        | ':' =>
            if s.inBrackets || isWordEnd rest then
              s.indicator? .mappingStart .value
            else s.plain?
        | _ => if isIndicator c then none else s.plain?

end Scanner

------------------------------------------------------------
-- Documents
------------------------------------------------------------

/- The tokens from a place on. `steps` bounds their number. -/
def tokensFrom?
    (steps : Nat)
    (s : Scanner) : Option (List Token) :=
  match steps with
  | 0 => none
  | steps + 1 =>
      let s := s.settle false s.rest
      if s.rest = [] then some s.endAllBlocks.1
      else do
        let (ends, s) := s.endBlocks
        let (found, s) ← s.token?
        return ends ++ found ++ (← tokensFrom? steps s)

/- The tokens of a document, each of one character or more. -/
def tokens? (document : String) : Option (List Token) := do
  let source ← source? document
  tokensFrom? (source.length + 1) (.start source)

end Yaml

end Criteria
