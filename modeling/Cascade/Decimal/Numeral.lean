/-!
# Numerals

The grammar of decimal numerals: an optional minus sign, a whole part without
leading zeros, then an optional fraction and an optional power of ten.
-/

namespace Cascade.Decimal

/-- A power of ten as it is written. -/
structure PowerText where
  negative : Bool
  digits : List Nat
  deriving DecidableEq, Repr

/-- The parts of a numeral. -/
structure Numeral where
  negative : Bool
  whole : List Nat
  /-- The digits after the point, if there is a point. -/
  fraction : Option (List Nat)
  power : Option PowerText
  deriving DecidableEq, Repr

def digitValue (c : Char) : Nat :=
  c.toNat - '0'.toNat

/-- The digits at the front of a text and what follows them. -/
def takeDigits (chars : List Char) : List Nat × List Char :=
  ((chars.takeWhile Char.isDigit).map digitValue, chars.dropWhile Char.isDigit)

def ofDigits (digits : List Nat) : Nat :=
  digits.foldl (fun n digit => n * 10 + digit) 0

namespace Numeral

/-- Whether digits can stand before the point: at least one, and no leading zero. -/
def isWhole : List Nat → Bool
  | [] => false
  | [_] => true
  | first :: _ => first != 0

/-- Read the fraction at the front of a text, if it has one. -/
def readFraction : List Char → Option (Option (List Nat) × List Char)
  | '.' :: rest =>
      match takeDigits rest with
      | ([], _) => none
      | (digits, after) => some (some digits, after)
  | chars => some (none, chars)

def readPowerSign : List Char → Bool × List Char
  | '+' :: rest => (false, rest)
  | '-' :: rest => (true, rest)
  | chars => (false, chars)

/-- Read a power of ten that is the rest of a text, if the text has one. -/
def readPower : List Char → Option (Option PowerText)
  | [] => some none
  | mark :: rest =>
      if mark = 'e' ∨ mark = 'E' then
        let (negative, digits) := readPowerSign rest
        match takeDigits digits with
        | (first :: more, []) => some (some ⟨negative, first :: more⟩)
        | _ => none
      else none

def readUnsigned (negative : Bool) (chars : List Char) : Option Numeral :=
  let (whole, afterWhole) := takeDigits chars
  if isWhole whole then
    match readFraction afterWhole with
    | some (fraction, afterFraction) =>
        (readPower afterFraction).map (fun power => ⟨negative, whole, fraction, power⟩)
    | none => none
  else none

def read? : List Char → Option Numeral
  | '-' :: rest => readUnsigned true rest
  | chars => readUnsigned false chars

end Numeral

end Cascade.Decimal
