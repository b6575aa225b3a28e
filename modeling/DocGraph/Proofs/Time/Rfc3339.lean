import DocGraph.Proofs.Text.Digits
import DocGraph.Proofs.Time.Calendar
import DocGraph.Time.Rfc3339
/-!
# Instants are read back

An instant of the years 0 to 9999 is read back from its text, leap seconds included.
-/

namespace DocGraph.Instant

open DocGraph.Text

def date (instant : Instant) : Calendar.Date :=
  Calendar.Date.ofDayNumber (instant.seconds / 86400 + Calendar.epochDay)

def HasPlainYear (instant : Instant) : Prop := 0 ≤ instant.date.year ∧ instant.date.year ≤ 9999

instance (instant : Instant) : Decidable instant.HasPlainYear :=
  inferInstanceAs (Decidable (_ ∧ _))

/-! ## Parts of the text -/

theorem number?_padded {width n : Nat} (hwidth : 0 < width) (hn : n < 10 ^ width)
    (rest : List Char) : number? width (padded width n ++ rest) = some (n, rest) := by
  have hlength := length_padded hwidth hn
  unfold number?
  rw [if_neg (by simp [hlength]), List.take_left' hlength, List.drop_left' hlength,
    decimal?_padded]
  rfl

theorem skip?_cons {allowed : List Char} {c : Char} (h : c ∈ allowed) (rest : List Char) :
    skip? allowed (c :: rest) = some rest := by
  rw [skip?, if_pos h]

theorem number?_bind {α : Type} {width n : Nat} (hwidth : 0 < width) (hn : n < 10 ^ width)
    (rest : List Char) (next : Nat × List Char → Option α) :
    (number? width (padded width n ++ rest) >>= next) = next (n, rest) := by
  rw [number?_padded hwidth hn]
  rfl

theorem skip?_bind {α : Type} {allowed : List Char} {c : Char} (h : c ∈ allowed)
    (rest : List Char) (next : List Char → Option α) :
    (skip? allowed (c :: rest) >>= next) = next rest := by
  rw [skip?_cons h]
  rfl

theorem takeWhile_padded (width n : Nat) (rest : List Char) :
    (padded width n ++ 'Z' :: rest).takeWhile Char.isDigit = padded width n ∧
      (padded width n ++ 'Z' :: rest).dropWhile Char.isDigit = 'Z' :: rest := by
  have hdigits : ∀ c ∈ padded width n, c.isDigit = true := fun _ => isDigit_of_mem_padded
  rw [List.takeWhile_append_of_pos hdigits, List.dropWhile_append_of_pos hdigits]
  constructor
  · rw [List.takeWhile_cons_of_neg (by decide), List.append_nil]
  · rw [List.dropWhile_cons_of_neg (by decide)]

theorem fraction?_padded {width n : Nat} (hpos : 0 < width) (hwidth : width ≤ 9)
    (hn : n < 10 ^ width) (rest : List Char) :
    fraction? ('.' :: padded width n ++ 'Z' :: rest)
      = some (10 ^ (9 - width) * n, 'Z' :: rest) := by
  obtain ⟨htake, hdrop⟩ := takeWhile_padded width n rest
  have hlength := length_padded hpos hn
  have hsome : (padded width n).isEmpty = false := by
    cases hpadded : padded width n with
    | nil => simp [hpadded] at hlength; omega
    | cons c digits => rfl
  rw [List.cons_append, fraction?]
  dsimp only
  rw [htake, hdrop, hsome, List.take_of_length_le (by omega), hlength, decimal?_padded_zeros]
  rfl

/-- The fraction of a second is read back, behind which the text ends. -/
theorem fraction?_fractionText {nanos : Nat} (h : nanos < 1000000000) (rest : List Char) :
    fraction? (fractionText nanos ++ 'Z' :: rest) = some (nanos, 'Z' :: rest) := by
  unfold fractionText
  split
  · rename_i hzero
    rw [hzero]
    rfl
  · split
    · rename_i _ hmillis
      rw [fraction?_padded (by decide) (by decide) (by omega)]
      simp only [Option.some.injEq, Prod.mk.injEq, and_true]
      omega
    · split
      · rename_i _ _ hmicros
        rw [fraction?_padded (by decide) (by decide) (by omega)]
        simp only [Option.some.injEq, Prod.mk.injEq, and_true]
        omega
      · rw [fraction?_padded (by decide) (by decide) h]
        simp

/-! ## The text -/

def dateTimeText (year month day hour minute second nanos : Nat) : List Char :=
  padded 4 year ++ '-' :: (padded 2 month ++ '-' :: (padded 2 day ++ 'T' ::
    (padded 2 hour ++ ':' :: (padded 2 minute ++ ':' :: (padded 2 second ++
      (fractionText nanos ++ ['Z']))))))

theorem ofRfc3339Chars?_dateTimeText {year month day hour minute second nanos : Nat}
    (hvalid : (⟨year, month, day⟩ : Calendar.Date).isValid = true) (hyear : year < 10000)
    (hhour : hour < 24) (hminute : minute < 60) (hsecond : second ≤ 60)
    (hnanos : nanos < 1000000000) :
    ofRfc3339Chars? (dateTimeText year month day hour minute second nanos) =
      ofUnix? (86400 * ((⟨year, month, day⟩ : Calendar.Date).dayNumber - Calendar.epochDay)
          + (3600 * hour + 60 * minute + (min second 59 : Nat)))
        (nanos + if second = 60 then 1000000000 else 0) := by
  obtain ⟨hmonth, hday⟩ := Calendar.Date.bounds_of_isValid hvalid
  dsimp only at hmonth hday
  unfold ofRfc3339Chars? dateTimeText
  -- The parts are read one after the other.
  refine (number?_bind (by decide) (by omega) _ _).trans ?_
  refine (skip?_bind (by decide) _ _).trans ?_
  refine (number?_bind (by decide) (by omega) _ _).trans ?_
  refine (skip?_bind (by decide) _ _).trans ?_
  refine (number?_bind (by decide) (by omega) _ _).trans ?_
  refine (skip?_bind (by decide) _ _).trans ?_
  refine (number?_bind (by decide) (by omega) _ _).trans ?_
  refine (skip?_bind (by decide) _ _).trans ?_
  refine (number?_bind (by decide) (by omega) _ _).trans ?_
  refine (skip?_bind (by decide) _ _).trans ?_
  refine (number?_bind (by decide) (by omega) _ _).trans ?_
  dsimp only
  rw [fraction?_fractionText hnanos]
  refine (if_pos ⟨hvalid, hhour, hminute, hsecond, rfl⟩).trans ?_
  rw [Int.sub_zero]

/-- The number of the leap second that an instant lies in: none or one. -/
def leap (instant : Instant) : Nat := if instant.nanos < 1000000000 then 0 else 1

theorem rfc3339Chars_eq {instant : Instant} (h : instant.HasPlainYear) :
    instant.rfc3339Chars = dateTimeText instant.date.year.toNat instant.date.month
      instant.date.day ((instant.seconds % 86400).toNat / 3600)
      ((instant.seconds % 86400).toNat / 60 % 60)
      ((instant.seconds % 86400).toNat % 60 + instant.leap)
      (instant.nanos - instant.leap * 1000000000) := by
  have hyear : yearText instant.date.year = padded 4 instant.date.year.toNat := if_pos h
  unfold dateTimeText
  rw [← hyear]
  simp [rfc3339Chars, date, leap]

theorem ofUnix?_self (instant : Instant) :
    ofUnix? instant.seconds instant.nanos = some instant := by
  rw [ofUnix?, dif_pos instant.inRange, dif_pos instant.nanosInRange]

/-- Every instant of a plain year is read back from its text. -/
theorem ofRfc3339Chars?_rfc3339Chars {instant : Instant} (h : instant.HasPlainYear) :
    ofRfc3339Chars? instant.rfc3339Chars = some instant := by
  obtain ⟨hyear, hyear'⟩ := id h
  obtain ⟨hvalid, hnumber⟩ :=
    Calendar.ofDayNumber_spec (instant.seconds / 86400 + Calendar.epochDay)
  have hdate : (⟨instant.date.year.toNat, instant.date.month, instant.date.day⟩ : Calendar.Date)
      = instant.date := by
    rw [Int.toNat_of_nonneg hyear]
  have hnanos := instant.nanosInRange
  have hleap : (instant.leap = 0 ∧ instant.nanos < 1000000000) ∨
      (instant.leap = 1 ∧ 1000000000 ≤ instant.nanos ∧ instant.nanos < 2000000000 ∧
        instant.seconds % 60 = 59) := by
    unfold leap
    split <;> omega
  rw [rfc3339Chars_eq h, ofRfc3339Chars?_dateTimeText (by rw [hdate]; exact hvalid) (by omega)
    (by omega) (by omega) (by omega) (by omega), hdate]
  refine Eq.trans (congr (congrArg ofUnix? ?_) ?_) (ofUnix?_self instant)
  · have hnumber : instant.date.dayNumber - Calendar.epochDay = instant.seconds / 86400 := by
      rw [date, hnumber]
      omega
    rw [hnumber]
    omega
  · split <;> omega

theorem ofRfc3339?_rfc3339 {instant : Instant} (h : instant.HasPlainYear) :
    ofRfc3339? instant.rfc3339 = some instant := by
  rw [ofRfc3339?, rfc3339, String.toList_ofList, ofRfc3339Chars?_rfc3339Chars h]

end DocGraph.Instant
