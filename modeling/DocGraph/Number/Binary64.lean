import DocGraph.Number.Instances
/-!
# Double-precision numbers

A double is held as its 64 bits, so equality of doubles is equality of bits and every
operation is exact natural-number arithmetic followed by one rounding to the nearest double,
ties to the even significand.  Finite magnitudes are counted in units of `2 ^ -1074`, the
least positive double.
-/

namespace DocGraph

structure Binary64 where
  bits : UInt64
deriving DecidableEq, Inhabited

namespace Binary64

def magnitude (x : Binary64) : Nat := x.bits.toNat % 2 ^ (63 : Nat)

def isNegative (x : Binary64) : Bool := decide (2 ^ (63 : Nat) ≤ x.bits.toNat)

/-- The magnitude of the infinities; those above it are not numbers. -/
def infinityMagnitude : Nat := 2047 * 2 ^ (52 : Nat)

def isFinite (x : Binary64) : Bool := decide (x.magnitude < infinityMagnitude)

def isNaN (x : Binary64) : Bool := decide (infinityMagnitude < x.magnitude)

def isInfinite (x : Binary64) : Bool := decide (x.magnitude = infinityMagnitude)

def ofMagnitude (negative : Bool) (magnitude : Nat) : Binary64 :=
  ⟨UInt64.ofNat (magnitude + if negative then 2 ^ (63 : Nat) else 0)⟩

def nan : Binary64 := ofMagnitude false (infinityMagnitude + 2 ^ (51 : Nat))

def infinity (negative : Bool) : Binary64 := ofMagnitude negative infinityMagnitude

def zero (negative : Bool) : Binary64 := ofMagnitude negative 0

/-- The significand of a finite double: its absolute value is
`significand * 2 ^ exponent` units. -/
def significand (x : Binary64) : Nat :=
  if x.magnitude < 2 ^ (52 : Nat) then x.magnitude
  else 2 ^ (52 : Nat) + x.magnitude % 2 ^ (52 : Nat)

def exponent (x : Binary64) : Nat := x.magnitude / 2 ^ (52 : Nat) - 1

def units (x : Binary64) : Nat := x.significand * 2 ^ x.exponent

def unit : Nat := 2 ^ (1074 : Nat)

/-- The quotient rounded to the nearest natural number, ties to even. -/
def roundDiv (num den : Nat) : Nat :=
  let quotient := num / den
  let twice := 2 * (num % den)
  if den < twice ∨ (twice = den ∧ quotient % 2 = 1) then quotient + 1 else quotient

/-- The double nearest to `num / den`, ties to the even significand; a quotient beyond the
largest finite double gives infinity.  Writing the exponent above the significand makes a
carry out of the significand raise the exponent by itself. -/
def ofRatio (negative : Bool) (num den : Nat) : Binary64 :=
  let scaled := num * unit
  let exponent := (scaled / den).log2 - 52
  let magnitude := exponent * 2 ^ (52 : Nat) + roundDiv scaled (den * 2 ^ exponent)
  ofMagnitude negative (min magnitude infinityMagnitude)

def ofInt (i : Int) : Binary64 := ofRatio (decide (i < 0)) i.natAbs 1

def tenPow (k : Nat) : Binary64 := ofRatio false (10 ^ k) 1

def mul (x y : Binary64) : Binary64 :=
  ofRatio (x.isNegative != y.isNegative) (x.units * y.units) (unit * unit)

def div (x y : Binary64) : Binary64 :=
  ofRatio (x.isNegative != y.isNegative) x.units y.units

def neg (x : Binary64) : Binary64 := ofMagnitude (!x.isNegative) x.magnitude

/-- Numeric equality: both zeros agree, and nothing agrees with a not-a-number. -/
def agrees (x y : Binary64) : Bool :=
  !x.isNaN && !y.isNaN && (x == y || (x.magnitude == 0 && y.magnitude == 0))

def hex (x : Binary64) : String :=
  String.ofList (((List.range 16).map fun i =>
    Nat.digitChar (x.bits.toNat / 16 ^ (15 - i) % 16)))

end Binary64

end DocGraph
