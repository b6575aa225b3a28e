import DocGraph.Text.Digits
import DocGraph.Time.Instant
/-!
# RFC 3339 text of instants

Instants are written in UTC with as many fraction digits, in groups of three, as they need.
Reading accepts any offset of less than a day and any number of fraction digits, of which
nine count; a second numbered sixty is a leap second.
-/

namespace DocGraph.Instant

open DocGraph.Text

/-- The text of a year: four digits, and a sign in front beyond them. -/
def yearText (year : Int) : List Char :=
  if 0 ≤ year ∧ year ≤ 9999 then padded 4 year.toNat
  else (if year < 0 then '-' else '+') :: padded 4 year.natAbs

/-- The text of a fraction of a second: nothing, or a point and three, six or nine digits. -/
def fractionText (nanos : Nat) : List Char :=
  if nanos = 0 then []
  else if nanos % 1000000 = 0 then '.' :: padded 3 (nanos / 1000000)
  else if nanos % 1000 = 0 then '.' :: padded 6 (nanos / 1000)
  else '.' :: padded 9 nanos

def rfc3339Chars (instant : Instant) : List Char :=
  let date := Calendar.Date.ofDayNumber (instant.seconds / 86400 + Calendar.epochDay)
  let clock := (instant.seconds % 86400).toNat
  let leap := if instant.nanos < 1000000000 then 0 else 1
  yearText date.year ++ ['-'] ++ padded 2 date.month ++ ['-'] ++ padded 2 date.day ++ ['T']
    ++ padded 2 (clock / 3600) ++ [':'] ++ padded 2 (clock / 60 % 60) ++ [':']
    ++ padded 2 (clock % 60 + leap) ++ fractionText (instant.nanos - leap * 1000000000) ++ ['Z']

def rfc3339 (instant : Instant) : String := String.ofList instant.rfc3339Chars

def number? (width : Nat) (chars : List Char) : Option (Nat × List Char) := do
  if chars.length < width then none
  else return (← decimal? (chars.take width), chars.drop width)

def skip? (allowed : List Char) : List Char → Option (List Char)
  | [] => none
  | c :: rest => if c ∈ allowed then some rest else none

def fraction? : List Char → Option (Nat × List Char)
  | '.' :: rest => do
    let digits := rest.takeWhile Char.isDigit
    if digits.isEmpty then none
    else
      let counted := digits.take 9
      let nanos ← decimal? (counted ++ List.replicate (9 - counted.length) '0')
      return (nanos, rest.dropWhile Char.isDigit)
  | rest => some (0, rest)

def offset? : List Char → Option (Int × List Char)
  | [] => none
  | c :: rest => do
    if c = 'Z' ∨ c = 'z' then return (0, rest)
    let sign : Int ←
      if c = '+' then some 1 else if c = '-' ∨ c = '\u2212' then some (-1) else none
    let (hours, rest) ← number? 2 rest
    let rest ← skip? [':'] rest
    let (minutes, rest) ← number? 2 rest
    if hours < 24 ∧ minutes < 60 then return (sign * (3600 * hours + 60 * minutes), rest)
    else none

def ofRfc3339Chars? (chars : List Char) : Option Instant := do
  let (year, rest) ← number? 4 chars
  let rest ← skip? ['-'] rest
  let (month, rest) ← number? 2 rest
  let rest ← skip? ['-'] rest
  let (day, rest) ← number? 2 rest
  let rest ← skip? ['T', 't', ' '] rest
  let (hour, rest) ← number? 2 rest
  let rest ← skip? [':'] rest
  let (minute, rest) ← number? 2 rest
  let rest ← skip? [':'] rest
  let (second, rest) ← number? 2 rest
  let (nanos, rest) ← fraction? rest
  let (offset, rest) ← offset? rest
  let date : Calendar.Date := ⟨year, month, day⟩
  if date.isValid ∧ hour < 24 ∧ minute < 60 ∧ second ≤ 60 ∧ rest = [] then
    let days := date.dayNumber - Calendar.epochDay
    let clock : Int := 3600 * hour + 60 * minute + min second 59
    ofUnix? (86400 * days + clock - offset) (nanos + if second = 60 then 1000000000 else 0)
  else none

def ofRfc3339? (text : String) : Option Instant := ofRfc3339Chars? text.toList

end DocGraph.Instant
