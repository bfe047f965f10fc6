import Cascade.Decimal.Numeral
import Cascade.Decimal.Shortest

/-!
# Numbers in JSON

A number is a whole number that fits in 64 bits, signed or unsigned, or a
finite binary64 number.  `Number.ofNumeral?` is the reading rule and
`Number.write` the printing rule.

A numeral that is not a small whole number is read in binary64 arithmetic:
its digits are gathered into one whole number for as long as that stays below
2 ^ 64, and the result is multiplied or divided once by the power of ten that
is left.  Digits that no longer fit before the point only scale by ten, those
after it are dropped.
-/

namespace Cascade.Json

open Cascade.Decimal

/-- A number. -/
inductive Number where
  /-- A whole number between -2 ^ 63 and 2 ^ 64 - 1. -/
  | integer (value : Int)
  | float (value : Binary64)
  deriving DecidableEq, Repr, Inhabited

namespace Number

/-- The first whole number that does not fit in 64 bits. -/
def wordLimit : Nat := Nat.pow 2 64

/-- The largest power of ten that is written out before the exponent is refused. -/
def powerLimit : Nat := Nat.pow 2 31 - 1

/-- The largest power of ten that a single multiplication or division can use. -/
def tableLimit : Nat := 308

/-- Digits gathered into a whole number below `wordLimit`. -/
structure Gathered where
  significand : Nat
  full : Bool
  /-- By how many powers of ten the number is to be scaled. -/
  exponent : Int

/-- Take a digit before the point: once one does not fit, digits only scale. -/
def Gathered.whole (g : Gathered) (digit : Nat) : Gathered :=
  let next := g.significand * 10 + digit
  if g.full || wordLimit ≤ next then ⟨g.significand, true, g.exponent + 1⟩
  else ⟨next, false, g.exponent⟩

/-- Take a digit after the point: once one does not fit, digits are dropped. -/
def Gathered.fraction (g : Gathered) (digit : Nat) : Gathered :=
  let next := g.significand * 10 + digit
  if g.full || wordLimit ≤ next then ⟨g.significand, true, g.exponent⟩
  else ⟨next, false, g.exponent - 1⟩

/-- Scale a magnitude by a power of ten, unless it grows past every finite magnitude.

A power below the table is worked off in steps; a significand below 2 ^ 64 has
become zero after two of them. -/
def scale : Nat → Nat → Int → Option Nat
  | 0, _, _ => some 0
  | steps + 1, units, exponent =>
      if exponent.natAbs ≤ tableLimit then
        if 0 ≤ exponent then
          let scaled := multiply units (ofNat (Nat.pow 10 exponent.natAbs))
          if scaled < infinity then some scaled else none
        else some (divide units (ofNat (Nat.pow 10 exponent.natAbs)))
      else if units = 0 then some 0
      else if 0 ≤ exponent then none
      else scale steps (divide units (ofNat (Nat.pow 10 tableLimit))) (exponent + tableLimit)

def ofGathered? (negative : Bool) (significand : Nat) (exponent : Int) : Option Number :=
  (scale 3 (ofNat significand) exponent).map (fun units => .float ⟨negative, units⟩)

/-- Apply a written power of ten to a gathered significand. -/
def withPower? (negative : Bool) (g : Gathered) (power : PowerText) : Option Number :=
  let written := ofDigits power.digits
  if written ≤ powerLimit then
    ofGathered? negative g.significand
      (if power.negative then g.exponent - written else g.exponent + written)
  else if g.significand ≠ 0 ∧ power.negative = false then none
  else some (.float ⟨negative, 0⟩)

/-- A whole number without a point or a power: exact where 64 bits hold it. -/
def ofWhole (negative : Bool) (significand : Nat) : Number :=
  if negative = false then .integer significand
  else if significand = 0 ∨ Nat.pow 2 63 < significand then .float ⟨true, ofNat significand⟩
  else .integer (-significand)

/-- The number that a numeral denotes, unless it is too large to be finite. -/
def ofNumeral? (n : Numeral) : Option Number :=
  let whole := n.whole.foldl Gathered.whole ⟨0, false, 0⟩
  match n.fraction, n.power with
  | none, none =>
      if whole.full then ofGathered? n.negative whole.significand whole.exponent
      else some (ofWhole n.negative whole.significand)
  | none, some power => withPower? n.negative whole power
  | some digits, power =>
      let gathered := digits.foldl Gathered.fraction { whole with full := false }
      match power with
      | none => ofGathered? n.negative gathered.significand gathered.exponent
      | some power => withPower? n.negative gathered power

/-- How decimals are laid out: which are written positionally, and the mark of the others. -/
structure Layout where
  mostWhole : Int
  /-- The most zeros that stand between the point and the first digit. -/
  mostZeros : Int
  mark : Char

/-- Up to sixteen digits stand before the point and up to four zeros after it. -/
def layout : Layout := ⟨16, 4, 'e'⟩

def naturalText (n : Nat) : List Char :=
  Nat.toDigits 10 n

def integerText : Int → List Char
  | .ofNat n => naturalText n
  | .negSucc n => '-' :: naturalText (n + 1)

def scaledText (l : Layout) (s : Scaled) : List Char :=
  let digits := naturalText s.digits
  let point := digits.length + s.exponent
  if 0 ≤ s.exponent ∧ point ≤ l.mostWhole then
    digits ++ List.replicate s.exponent.toNat '0' ++ ['.', '0']
  else if 0 < point ∧ point ≤ l.mostWhole then
    digits.take point.toNat ++ '.' :: digits.drop point.toNat
  else if -l.mostZeros ≤ point ∧ point ≤ 0 then
    '0' :: '.' :: List.replicate (-point).toNat '0' ++ digits
  else
    match digits with
    | [first] => first :: l.mark :: integerText (point - 1)
    | first :: rest => first :: '.' :: rest ++ l.mark :: integerText (point - 1)
    | [] => []

def magnitudeText (units : Nat) : List Char :=
  if units = 0 then ['0', '.', '0'] else scaledText layout (shortest units)

def write : Number → List Char
  | .integer value => integerText value
  | .float ⟨false, units⟩ => magnitudeText units
  | .float ⟨true, units⟩ => '-' :: magnitudeText units

end Number

end Cascade.Json
