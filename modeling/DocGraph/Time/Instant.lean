import DocGraph.Time.Calendar
/-!
# Instants

An instant is a count of seconds since the beginning of 1970 in UTC and of nanoseconds after
that second.  A billion nanoseconds or more place it in the leap second that follows the last
second of a minute.
-/

namespace DocGraph

/-- The first representable second, the beginning of the year -262143. -/
def Instant.minSeconds : Int := (Calendar.yearStart (-262143) - Calendar.epochDay) * 86400

def Instant.maxSeconds : Int := (Calendar.yearStart 262143 - Calendar.epochDay) * 86400 - 1

structure Instant where
  seconds : Int
  nanos : Nat
  inRange : Instant.minSeconds ≤ seconds ∧ seconds ≤ Instant.maxSeconds
  nanosInRange : nanos < 1000000000 ∨ (nanos < 2000000000 ∧ seconds % 60 = 59)
deriving DecidableEq

namespace Instant

def ofUnix? (seconds : Int) (nanos : Nat) : Option Instant :=
  if h : minSeconds ≤ seconds ∧ seconds ≤ maxSeconds then
    if h' : nanos < 1000000000 ∨ (nanos < 2000000000 ∧ seconds % 60 = 59) then
      some ⟨seconds, nanos, h, h'⟩
    else none
  else none

def ofMillis? (millis : Int) : Option Instant :=
  ofUnix? (millis / 1000) ((millis % 1000).toNat * 1000000)

/-- Milliseconds since the beginning of 1970, rounded down. -/
def millis (instant : Instant) : Int :=
  instant.seconds * 1000 + (instant.nanos / 1000000 : Nat)

end Instant

end DocGraph
