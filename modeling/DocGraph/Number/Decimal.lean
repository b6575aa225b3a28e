import DocGraph.Number.Binary64
/-!
# Shortest decimal text of a double

The digits written for a double are the fewest that read back as it; of several such numbers
the nearest is taken, a tie going to the even last digit.  A real number reads back as the
double when it lies between the midpoints to the neighbouring doubles, the midpoints included
when the significand is even.
-/

namespace DocGraph.Binary64

structure Decimal where
  digits : Nat
  exponent : Int

/-- Four times the lower end of the interval that reads back as `x`, in units.  Just above a
power of two the doubles below lie twice as close. -/
def lowerEnd (x : Binary64) : Nat :=
  let gap := 2 ^ x.exponent
  4 * x.units - if x.significand = 2 ^ (52 : Nat) ∧ 0 < x.exponent then gap else 2 * gap

def upperEnd (x : Binary64) : Nat := 4 * x.units + 2 * 2 ^ x.exponent

/-- Whether `num / den`, four times a value in units, reads back as `x`. -/
def readsBack (x : Binary64) (num den : Nat) : Bool :=
  if x.significand % 2 = 0 then
    decide (x.lowerEnd * den ≤ num ∧ num ≤ x.upperEnd * den)
  else
    decide (x.lowerEnd * den < num ∧ num < x.upperEnd * den)

/-- The multiple of `10 ^ place` that stands for `x`, when one reads back: the nearer of the two
neighbours of `x` on that grid. -/
def onGrid? (x : Binary64) (place : Int) : Option Decimal :=
  let up := 10 ^ place.toNat
  let down := 10 ^ (-place).toNat
  let below := x.units * down / (unit * up)
  let reads := fun n : Nat => x.readsBack (4 * n * unit * up) down
  let nearest := roundDiv (x.units * down) (unit * up)
  if reads nearest then some ⟨nearest, place⟩
  else if reads below then some ⟨below, place⟩
  else if reads (below + 1) then some ⟨below + 1, place⟩
  else none

/-- The shortest decimal that reads back as a finite nonzero double: the coarsest grid with a
hit is taken, from the hundreds of digits a double can have before the point to those it can
have after it. -/
def shortest (x : Binary64) : Decimal :=
  ((List.range 635).findSome? fun i : Nat => x.onGrid? (309 - Int.ofNat i)).getD ⟨0, 0⟩

/-- The text of a decimal: positional from one hundred-thousandth up to sixteen digits before
the point, always with a point, and otherwise with an exponent that carries its sign. -/
def Decimal.text (d : Decimal) : String :=
  let digits := Nat.toDigits 10 d.digits
  let point : Int := digits.length + d.exponent
  if 0 ≤ d.exponent ∧ point ≤ 16 then
    String.ofList (digits ++ List.replicate d.exponent.toNat '0') ++ ".0"
  else if 0 < point ∧ point ≤ 16 then
    String.ofList (digits.take point.toNat) ++ "." ++ String.ofList (digits.drop point.toNat)
  else if -5 < point ∧ point ≤ 0 then
    "0." ++ String.ofList (List.replicate (-point).toNat '0' ++ digits)
  else
    let fraction := digits.drop 1
    String.ofList (digits.take 1)
      ++ (if fraction.isEmpty then "" else "." ++ String.ofList fraction)
      ++ "e" ++ (if 0 < point then "+" else "-") ++ toString (point - 1).natAbs

def text (x : Binary64) : String :=
  if x.isNaN then "NaN"
  else
    (if x.isNegative then "-" else "") ++
      if x.isInfinite then "inf"
      else if x.magnitude = 0 then "0.0"
      else x.shortest.text

end DocGraph.Binary64
