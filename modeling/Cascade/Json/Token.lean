import Cascade.Json.Number

/-!
# Tokens of JSON

The lexer is a machine that takes one character at a time.  Numerals and words
are gathered for as long as their characters last, and then checked as a whole;
strings are gathered as characters and escaped code units, and paired up when
the closing quote is reached.
-/

namespace Cascade.Json

open Cascade.Decimal

/-- A token; a number or string that denotes no value carries none. -/
inductive Token where
  | openArray
  | closeArray
  | openObject
  | closeObject
  | comma
  | colon
  | null
  | bool (value : Bool)
  | number (value : Option Number)
  | string (value : Option String)
  deriving DecidableEq, Repr

/-- A piece of a string: a character, or a code unit given by its number. -/
inductive Piece where
  | plain (c : Char)
  | unit (n : Nat)
  deriving DecidableEq, Repr

namespace Piece

/-- Whether a code unit is the first half of a surrogate pair. -/
def isHigh (n : Nat) : Bool := 0xD800 ≤ n && n < 0xDC00

/-- Whether a code unit is the second half of a surrogate pair. -/
def isLow (n : Nat) : Bool := 0xDC00 ≤ n && n < 0xE000

def pair (high low : Nat) : Char :=
  Char.ofNat (0x10000 + (high - 0xD800) * 0x400 + (low - 0xDC00))

/-- The characters of pieces that follow an open first half, if there is one.

Every half of a pair has to be next to its other half. -/
def charsAfter : Option Nat → List Piece → Option (List Char)
  | none, [] => some []
  | some _, [] => none
  | none, .plain c :: rest => (charsAfter none rest).map (c :: ·)
  | some _, .plain _ :: _ => none
  | none, .unit n :: rest =>
      if isHigh n then charsAfter (some n) rest
      else if isLow n then none
      else (charsAfter none rest).map (Char.ofNat n :: ·)
  | some high, .unit n :: rest =>
      if isLow n then (charsAfter none rest).map (pair high n :: ·) else none

/-- The string that pieces spell, unless half of a surrogate pair is missing. -/
def text? (pieces : List Piece) : Option String :=
  (charsAfter none pieces).map String.ofList

end Piece

/-- What the lexer is in the middle of; gathered parts are in reverse. -/
inductive Mode where
  | between
  | word (held : List Char)
  | numeral (held : List Char)
  | string (held : List Piece)
  | escape (held : List Piece)
  | hex (held : List Piece) (value : Nat) (missing : Nat)
  deriving DecidableEq, Repr

/-- A lexer between two characters: the tokens so far are in reverse. -/
structure Lexer where
  mode : Mode
  done : List Token
  deriving DecidableEq, Repr

namespace Lexer

def wordToken? (word : List Char) : Option Token :=
  if word = ['n', 'u', 'l', 'l'] then some .null
  else if word = ['t', 'r', 'u', 'e'] then some (.bool true)
  else if word = ['f', 'a', 'l', 's', 'e'] then some (.bool false)
  else none

/-- The token of a numeral, if its text is one. -/
def numeralToken? (text : List Char) : Option Token :=
  (Numeral.read? text).map (fun numeral => .number (Number.ofNumeral? numeral))

/-- The character that a backslash and a letter stand for. -/
def escaped? (c : Char) : Option Char :=
  if c = '"' then some '"'
  else if c = '\\' then some '\\'
  else if c = '/' then some '/'
  else if c = 'b' then some '\x08'
  else if c = 'f' then some '\x0c'
  else if c = 'n' then some '\n'
  else if c = 'r' then some '\r'
  else if c = 't' then some '\t'
  else none

def hexValue? (c : Char) : Option Nat :=
  if '0' ≤ c && c ≤ '9' then some (c.toNat - '0'.toNat)
  else if 'a' ≤ c && c ≤ 'f' then some (c.toNat - 'a'.toNat + 10)
  else if 'A' ≤ c && c ≤ 'F' then some (c.toNat - 'A'.toNat + 10)
  else none

def isSpace (c : Char) : Bool :=
  c = ' ' || c = '\t' || c = '\n' || c = '\r'

def inNumeral (c : Char) : Bool :=
  c.isDigit || c = '+' || c = '-' || c = '.' || c = 'e' || c = 'E'

def mark? (c : Char) : Option Token :=
  if c = '[' then some .openArray
  else if c = ']' then some .closeArray
  else if c = '{' then some .openObject
  else if c = '}' then some .closeObject
  else if c = ',' then some .comma
  else if c = ':' then some .colon
  else none

/-- Take a character that stands between tokens or begins one. -/
def start (done : List Token) (c : Char) : Option Lexer :=
  match mark? c with
  | some token => some ⟨.between, token :: done⟩
  | none =>
      if isSpace c then some ⟨.between, done⟩
      else if c = '"' then some ⟨.string [], done⟩
      else if c = '-' || c.isDigit then some ⟨.numeral [c], done⟩
      else if c.isLower then some ⟨.word [c], done⟩
      else none

/-- Complete a word or numeral that has been gathered. -/
def settle (lexer : Lexer) : Option (List Token) :=
  match lexer.mode with
  | .between => some lexer.done
  | .word held => (wordToken? held.reverse).map (· :: lexer.done)
  | .numeral held => (numeralToken? held.reverse).map (· :: lexer.done)
  | _ => none

def step (lexer : Lexer) (c : Char) : Option Lexer :=
  match lexer.mode with
  | .between => start lexer.done c
  | .word held =>
      if c.isLower then some ⟨.word (c :: held), lexer.done⟩
      else lexer.settle.bind (fun done => start done c)
  | .numeral held =>
      if inNumeral c then some ⟨.numeral (c :: held), lexer.done⟩
      else lexer.settle.bind (fun done => start done c)
  | .string held =>
      if c = '"' then some ⟨.between, .string (Piece.text? held.reverse) :: lexer.done⟩
      else if c = '\\' then some ⟨.escape held, lexer.done⟩
      else if c.toNat < 0x20 then none
      else some ⟨.string (.plain c :: held), lexer.done⟩
  | .escape held =>
      if c = 'u' then some ⟨.hex held 0 3, lexer.done⟩
      else (escaped? c).map (fun plain => ⟨.string (.plain plain :: held), lexer.done⟩)
  | .hex held value missing =>
      (hexValue? c).map (fun digit =>
        match missing with
        | 0 => ⟨.string (.unit (value * 16 + digit) :: held), lexer.done⟩
        | missing + 1 => ⟨.hex held (value * 16 + digit) missing, lexer.done⟩)

def run : Lexer → List Char → Option Lexer
  | lexer, [] => some lexer
  | lexer, c :: rest =>
      match lexer.step c with
      | some next => run next rest
      | none => none

end Lexer

/-- The tokens of a text, or nothing if a part of it is none. -/
def tokens? (text : List Char) : Option (List Token) :=
  match Lexer.run ⟨.between, []⟩ text with
  | some lexer => lexer.settle.map List.reverse
  | none => none

end Cascade.Json
