/-!
# Finite binary64 numbers

Every finite binary64 magnitude is a whole number of units of the smallest
subnormal, 2 ^ -1074, so a magnitude is kept as that natural number and all
arithmetic on it is exact until the one rounding at its end: to the nearest
magnitude with 53 significant bits, a half to the even one.
-/

namespace Cascade.Decimal

def significandBits : Nat := 53

def one : Nat := Nat.pow 2 1074

/-- The first magnitude that is too large to be finite, in units. -/
def infinity : Nat := Nat.pow 2 (1024 + 1074)

/-- The quotient of two naturals rounded to the nearest natural, a half to the even one. -/
def divideHalfEven (numerator denominator : Nat) : Nat :=
  let quotient := numerator / denominator
  let remainder := numerator % denominator
  if 2 * remainder < denominator then quotient
  else if denominator < 2 * remainder then quotient + 1
  else quotient + quotient % 2

def spacing (units : Nat) : Nat :=
  Nat.pow 2 (units.log2 + 1 - significandBits)

/-- A quotient of naturals, counted in units, rounded to a magnitude. -/
def roundQuotient (numerator denominator : Nat) : Nat :=
  let step := spacing (numerator / denominator)
  divideHalfEven numerator (denominator * step) * step

def ofNat (n : Nat) : Nat :=
  roundQuotient (n * one) 1

def multiply (a b : Nat) : Nat :=
  roundQuotient (a * b) one

def divide (a b : Nat) : Nat :=
  roundQuotient (a * one) b

/-- A finite binary64 number: a sign and a magnitude in units of the smallest subnormal. -/
structure Binary64 where
  /-- Whether the number has a minus sign; zero can have one too. -/
  negative : Bool
  units : Nat
  deriving DecidableEq, Repr, Inhabited

end Cascade.Decimal
