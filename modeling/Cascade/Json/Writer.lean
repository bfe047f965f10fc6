import Cascade.Json.Value

/-!
# Writing JSON

Values are written without spaces, members in the order in which they are
listed.  Inside a string only the quote, the backslash and the controls below
U+0020 are escaped.
-/

namespace Cascade.Json

/-- The digit that stands for a number below sixteen. -/
def hexDigit (n : Nat) : Char :=
  if n < 10 then Char.ofNat ('0'.toNat + n) else Char.ofNat ('a'.toNat + (n - 10))

/-- A character as it stands inside a quoted string. -/
def escape (c : Char) : List Char :=
  if c = '"' then ['\\', '"']
  else if c = '\\' then ['\\', '\\']
  else if c = '\x08' then ['\\', 'b']
  else if c = '\x0c' then ['\\', 'f']
  else if c = '\n' then ['\\', 'n']
  else if c = '\r' then ['\\', 'r']
  else if c = '\t' then ['\\', 't']
  else if c.toNat < 0x20 then
    ['\\', 'u', '0', '0', hexDigit (c.toNat / 16), hexDigit (c.toNat % 16)]
  else [c]

def quote (text : String) : List Char :=
  '"' :: text.toList.flatMap escape ++ ['"']

namespace Value

mutual

def write : Value → List Char
  | .null => ['n', 'u', 'l', 'l']
  | .bool true => ['t', 'r', 'u', 'e']
  | .bool false => ['f', 'a', 'l', 's', 'e']
  | .number n => n.write
  | .string text => quote text
  | .array items => '[' :: writeItems items ++ [']']
  | .object members => '{' :: writeMembers members ++ ['}']

def writeItems : List Value → List Char
  | [] => []
  | [value] => write value
  | value :: next :: rest => write value ++ ',' :: writeItems (next :: rest)

def writeMembers : List (String × Value) → List Char
  | [] => []
  | [(key, value)] => quote key ++ ':' :: write value
  | (key, value) :: next :: rest =>
      quote key ++ ':' :: write value ++ ',' :: writeMembers (next :: rest)

end

def render (value : Value) : String :=
  String.ofList value.write

end Value

end Cascade.Json
