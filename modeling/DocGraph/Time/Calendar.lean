import DocGraph.Number.Instances
/-!
# The Gregorian calendar

Days are counted from the first of January of the year zero, in both directions without end.
-/

namespace DocGraph.Calendar

structure Date where
  year : Int
  month : Nat
  day : Nat
deriving DecidableEq

def isLeap (year : Int) : Bool :=
  year % 4 = 0 && (year % 100 ≠ 0 || year % 400 = 0)

/-- The number of the first day of a year: one day more for every leap year before it. -/
def yearStart (year : Int) : Int :=
  365 * year + (year + 3) / 4 - (year + 99) / 100 + (year + 399) / 400

def monthLengths (leap : Bool) : List Nat :=
  [31, if leap then 29 else 28, 31, 30, 31, 30, 31, 31, 30, 31, 30, 31]

def Date.isValid (date : Date) : Bool :=
  match (monthLengths (isLeap date.year))[date.month - 1]? with
  | some length => 1 ≤ date.month && 1 ≤ date.day && date.day ≤ length
  | none => false

def Date.dayNumber (date : Date) : Int :=
  yearStart date.year
    + (((monthLengths (isLeap date.year)).take (date.month - 1)).sum : Nat)
    + (date.day : Int) - 1

/-- The year that a day falls in.  The mean length of a year gives it up to one year. -/
def yearOf (dayNumber : Int) : Int :=
  let guess := 400 * dayNumber / 146097
  if dayNumber < yearStart guess then guess - 1
  else if yearStart (guess + 1) ≤ dayNumber then guess + 1
  else guess

/-- The month, counted from `month`, and the day in it of the day that comes `rest` days after
the first of `month`. -/
def monthDay (month rest : Nat) : List Nat → Nat × Nat
  | [] => (month, rest + 1)
  | length :: lengths =>
    if rest < length then (month, rest + 1) else monthDay (month + 1) (rest - length) lengths

def Date.ofDayNumber (dayNumber : Int) : Date :=
  let year := yearOf dayNumber
  let (month, day) := monthDay 1 (dayNumber - yearStart year).toNat (monthLengths (isLeap year))
  ⟨year, month, day⟩

def epochDay : Int := yearStart 1970

end DocGraph.Calendar
