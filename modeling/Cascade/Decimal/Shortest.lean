import Cascade.Decimal.Binary64

/-!
# Fewest digits that read back

A decimal reads back as a given magnitude when it lies between the midpoints
to the two neighbouring magnitudes; a midpoint itself belongs to the neighbour
with the even significand.  The shortest text of a magnitude is a multiple of
the largest power of ten that has a multiple in that interval, and of two such
multiples the one closer to the magnitude.
-/

namespace Cascade.Decimal

/-- A decimal number: `digits` times ten to the power `exponent`. -/
structure Scaled where
  digits : Nat
  exponent : Int
  deriving DecidableEq, Repr

/-- The fraction `units * 2 ^ -1074 / 10 ^ exponent` as numerator and denominator. -/
def ratioTo (units : Nat) (exponent : Int) : Nat × Nat :=
  match exponent with
  | .ofNat e => (units, one * Nat.pow 10 e)
  | .negSucc e => (units * Nat.pow 10 (e + 1), one)

/-- Whether `digits * 10 ^ exponent` reads back as the magnitude `units`. -/
def readsBack (units digits : Nat) (exponent : Int) : Bool :=
  let step := spacing units
  let below := if units = Nat.pow 2 (significandBits - 1) * step ∧ 1 < step then step else 2 * step
  let low := ratioTo (4 * units - below) exponent
  let high := ratioTo (4 * units + 2 * step) exponent
  let point := 4 * digits * high.2
  if (units / step) % 2 = 0 then low.1 ≤ point && point ≤ high.1
  else low.1 < point && point < high.1

/-- The multiple of a power of ten that reads back and is closest, if there is one. -/
def closestMultiple? (units : Nat) (exponent : Int) : Option Nat :=
  let ratio := ratioTo units exponent
  let floor := ratio.1 / ratio.2
  let nearest := divideHalfEven ratio.1 ratio.2
  let other := if nearest = floor then floor + 1 else floor
  if 0 < nearest && readsBack units nearest exponent then some nearest
  else if 0 < other && readsBack units other exponent then some other
  else none

/-- Try powers of ten downwards from `exponent`, at most `tries` of them. -/
def shortestFrom (units : Nat) : Nat → Int → Scaled
  | 0, exponent => ⟨(ratioTo units exponent).1 / (ratioTo units exponent).2, exponent⟩
  | tries + 1, exponent =>
      match closestMultiple? units exponent with
      | some digits => ⟨digits, exponent⟩
      | none => shortestFrom units tries (exponent - 1)

/-- The decimal with the fewest digits that reads back as a positive magnitude. -/
def shortest (units : Nat) : Scaled :=
  shortestFrom units 650 309

end Cascade.Decimal
