import Criteria.Json
import Criteria.Text.Hex

/-
  This file splits JSON text into tokens.

  The text is read one character at a time by a machine with
  four states: between tokens, inside a bare word, inside a
  string, and inside an escape of a string. Numbers are bare
  words until the text around them is known.

  Key definitions include:
    * `Token`
    * `Lexer.feed`
    * `Token.ofChars?`
    * `Number.ofWord?`
-/

------------------------------------------------------------
-- Tokens
------------------------------------------------------------

namespace Criteria

namespace Json

inductive Token where
  | openBrace
  | closeBrace
  | openBracket
  | closeBracket
  | colon
  | comma
  | word (chars : List Char)
  | string (s : String)
deriving DecidableEq, Repr

namespace Token

def ofPunctuation? : Char → Option Token
  | '\x7b' => some .openBrace
  | '\x7d' => some .closeBrace
  | '[' => some .openBracket
  | ']' => some .closeBracket
  | ':' => some .colon
  | ',' => some .comma
  | _ => none

def isSpace (c : Char) : Bool :=
  c = ' ' ∨ c = '\x09' ∨ c = '\x0a' ∨ c = '\x0d'

end Token

------------------------------------------------------------
-- Escapes
------------------------------------------------------------

/- The character that a one-letter escape stands for. -/
def unescape? : Char → Option Char
  | '"' => some '"'
  | '\\' => some '\\'
  | '/' => some '/'
  | 'b' => some '\x08'
  | 'f' => some '\x0c'
  | 'n' => some '\x0a'
  | 'r' => some '\x0d'
  | 't' => some '\x09'
  | _ => none

def isHighSurrogate (unit : Nat) : Bool :=
  0xD800 ≤ unit ∧ unit < 0xDC00

def isLowSurrogate (unit : Nat) : Bool :=
  0xDC00 ≤ unit ∧ unit < 0xE000

/- The code point of a pair of surrogates. -/
def pairSurrogates (high low : Nat) : Nat :=
  0x10000 + (high - 0xD800) * 0x400 + (low - 0xDC00)

------------------------------------------------------------
-- The Lexer
------------------------------------------------------------

/-
  What is open after some characters. Characters of a word
  or string are kept last first. A string may wait for the
  second half of a surrogate pair.
-/
inductive LexerState where
  | between
  | word (done : List Char)
  | string (done : List Char) (high : Option Nat)
  | escape (done : List Char) (high : Option Nat)
  | unit
      (done : List Char)
      (high : Option Nat)
      (digits : Nat)
      (code : Nat)
deriving Repr

/- The tokens read so far, last first, and what is open. -/
structure Lexer where
  done : List Token
  state : LexerState
deriving Repr

namespace Lexer

/- A character outside of words and strings. -/
def feedBetween
    (done : List Token)
    (c : Char) : Lexer :=
  match Token.ofPunctuation? c with
  | some token => ⟨token :: done, .between⟩
  | none =>
      if Token.isSpace c then ⟨done, .between⟩
      else if c = '"' then ⟨done, .string [] none⟩
      else ⟨done, .word [c]⟩

/- The end of a four-digit escape. -/
def closeUnit?
    (tokens : List Token)
    (done : List Char)
    (high : Option Nat)
    (code : Nat) : Option Lexer :=
  match high with
  | some first =>
      if isLowSurrogate code then
        let c := Char.ofNat (pairSurrogates first code)
        some ⟨tokens, .string (c :: done) none⟩
      else none
  | none =>
      if isHighSurrogate code then
        some ⟨tokens, .string done (some code)⟩
      else if isLowSurrogate code then none
      else
        some ⟨tokens, .string (Char.ofNat code :: done) none⟩

/- One more character, or `none` if no text goes on so. -/
def feed
    (lexer : Lexer)
    (c : Char) : Option Lexer :=
  match lexer.state with
  | .between => some (feedBetween lexer.done c)
  | .word done =>
      if (Token.ofPunctuation? c).isSome ||
          Token.isSpace c || c = '"' then
        some (feedBetween (.word done.reverse :: lexer.done) c)
      else
        some ⟨lexer.done, .word (c :: done)⟩
  | .string done high =>
      if c = '\\' then
        some ⟨lexer.done, .escape done high⟩
      else if high.isSome ∨ c.toNat < 32 then none
      else if c = '"' then
        let s := String.ofList done.reverse
        some ⟨.string s :: lexer.done, .between⟩
      else
        some ⟨lexer.done, .string (c :: done) none⟩
  | .escape done high =>
      if c = 'u' then
        some ⟨lexer.done, .unit done high 0 0⟩
      else if high.isSome then none
      else
        (unescape? c).map fun d =>
          ⟨lexer.done, .string (d :: done) none⟩
  | .unit done high digits code =>
      (Hex.value? c).bind fun digit =>
        let code := 16 * code + digit.val
        if digits = 3 then
          closeUnit? lexer.done done high code
        else
          some ⟨lexer.done, .unit done high (digits + 1) code⟩

def finish? (lexer : Lexer) : Option (List Token) :=
  match lexer.state with
  | .between => some lexer.done.reverse
  | .word done =>
      some (Token.word done.reverse :: lexer.done).reverse
  | _ => none

end Lexer

/- The tokens of a text. -/
def Token.ofChars? (text : List Char) : Option (List Token) :=
  (text.foldlM Lexer.feed ⟨[], .between⟩).bind
    Lexer.finish?

end Json

end Criteria

------------------------------------------------------------
-- Numbers
------------------------------------------------------------

namespace Criteria

namespace Number

/- The integers that fit sixty-four bits, signed or not. -/
def isIntegerRange (n : Int) : Bool :=
  -Int.pow 2 63 ≤ n ∧ n < Int.pow 2 64

/- A digit sequence that is not empty and its rest. -/
def spanDigits?
    (text : List Char) : Option (List Char × List Char) :=
  let digits := text.takeWhile Char.isDigit
  if digits = [] then none
  else some (digits, text.dropWhile Char.isDigit)

/- The digits after a point, if there is one. -/
def spanFraction?
    (text : List Char) : Option (List Char × List Char) :=
  match text with
  | '.' :: rest => spanDigits? rest
  | _ => some ([], text)

/- The exponent that ends a number. -/
def exponentOf? (text : List Char) : Option Int :=
  match text with
  | [] => some 0
  | c :: rest =>
      if c = 'e' ∨ c = 'E' then
        let negative := rest.head? = some '-'
        let digits :=
          if negative ∨ rest.head? = some '+' then
            rest.drop 1
          else rest
        if digits ≠ [] ∧ digits.all Char.isDigit then
          let n : Int := Nat.ofDigitChars 10 digits 0
          some (if negative then -n else n)
        else none
      else none

/- No number but zero starts with the digit zero. -/
def isWholePart (digits : List Char) : Bool :=
  digits.length = 1 ∨ digits.head? ≠ some '0'

/-
  The number that a word writes. Without a point and an
  exponent it is an integer when it fits one; all else, and
  minus zero, is the nearest floating-point number.
-/
def ofWord? (word : List Char) : Option Number := do
  let negative := word.head? = some '-'
  let unsigned := if negative then word.drop 1 else word
  let (whole, rest) ← spanDigits? unsigned
  if isWholePart whole then
    let (fraction, ending) ← spanFraction? rest
    let e ← exponentOf? ending
    let magnitude := Nat.ofDigitChars 10 whole 0
    let n : Int := if negative then -magnitude else magnitude
    if rest = [] ∧ isIntegerRange n ∧
        ¬ (negative ∧ magnitude = 0) then
      some (.integer n)
    else
      let digits := Nat.ofDigitChars 10 (whole ++ fraction) 0
      some (.float (Binary64.ofDecimal negative digits
        (e - fraction.length)))
  else none

end Number

end Criteria
