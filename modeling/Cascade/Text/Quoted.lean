import Cascade.Text.Shapeless

/-!
# Quoted texts

A text as it is shown in descriptions: between quotes, with the quote, the
backslash and four controls behind a backslash, and characters without a shape
of their own by number.
-/

namespace Cascade.Text

/-- The hexadecimal digits of a number, without leading zeros. -/
def hexDigits (n : Nat) : List Char :=
  Nat.toDigits 16 n

def showChar (c : Char) : List Char :=
  if c = '\x00' then ['\\', '0']
  else if c = '\t' then ['\\', 't']
  else if c = '\r' then ['\\', 'r']
  else if c = '\n' then ['\\', 'n']
  else if c = '\\' then ['\\', '\\']
  else if c = '"' then ['\\', '"']
  else if isShapeless c then '\\' :: 'u' :: '{' :: hexDigits c.toNat ++ ['}']
  else [c]

def quoted (text : String) : String :=
  String.ofList ('"' :: text.toList.flatMap showChar ++ ['"'])

end Cascade.Text
