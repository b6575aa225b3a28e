import DocGraph.Time.Calendar
/-!
# Days have one date

The date of a day is a day of the calendar, and its number is the number that it was found by.  The
year is found first: the mean length of a year is off by less than one year for every day.
-/

namespace DocGraph.Calendar

/-! ## Years -/

theorem yearStart_succ (year : Int) :
    yearStart (year + 1) = yearStart year + if isLeap year then 366 else 365 := by
  unfold yearStart isLeap
  by_cases hfour : year % 4 = 0
  · by_cases hhundred : year % 100 = 0
    · by_cases hfourHundred : year % 400 = 0
      · simp [hfour, hhundred, hfourHundred]
        omega
      · simp [hfour, hhundred, hfourHundred]
        omega
    · simp [hfour, hhundred]
      omega
  · simp [hfour]
    omega

theorem yearOf_spec (dayNumber : Int) :
    yearStart (yearOf dayNumber) ≤ dayNumber ∧ dayNumber < yearStart (yearOf dayNumber + 1) := by
  have hbelow : yearStart (400 * dayNumber / 146097 - 1) ≤ dayNumber := by
    unfold yearStart
    omega
  have habove : dayNumber < yearStart (400 * dayNumber / 146097 + 1 + 1) := by
    unfold yearStart
    omega
  unfold yearOf
  dsimp only
  split
  · rename_i hbefore
    exact ⟨hbelow, by rwa [Int.sub_add_cancel]⟩
  · split
    · rename_i _ hbehind
      exact ⟨hbehind, habove⟩
    · rename_i hbefore hbehind
      exact ⟨Int.not_lt.1 hbefore, Int.not_le.1 hbehind⟩

/-! ## Months -/

theorem sum_monthLengths (leap : Bool) :
    (monthLengths leap).sum = if leap then 366 else 365 := by
  cases leap <;> rfl

theorem monthDay_spec (month : Nat) {lengths : List Nat} {rest : Nat} (h : rest < lengths.sum) :
    ∃ passed length, lengths[passed]? = some length ∧
      (monthDay month rest lengths).1 = month + passed ∧
      1 ≤ (monthDay month rest lengths).2 ∧ (monthDay month rest lengths).2 ≤ length ∧
      (lengths.take passed).sum + (monthDay month rest lengths).2 = rest + 1 := by
  induction lengths generalizing month rest with
  | nil => simp at h
  | cons length lengths ih =>
      rw [monthDay]
      by_cases hrest : rest < length
      · rw [if_pos hrest]
        exact ⟨0, length, rfl, rfl, by omega, by omega, by simp⟩
      · rw [if_neg hrest]
        have hless : rest - length < lengths.sum := by
          rw [List.sum_cons] at h
          omega
        obtain ⟨passed, found, hfound, hmonth, hpos, hle, hsum⟩ := ih (month + 1) hless
        refine ⟨passed + 1, found, hfound, ?_, hpos, hle, ?_⟩
        · rw [hmonth]
          omega
        · rw [List.take_succ_cons, List.sum_cons]
          omega

/-! ## Dates -/

theorem Date.isValid_iff {date : Date} :
    date.isValid = true ↔ ∃ length,
      (monthLengths (isLeap date.year))[date.month - 1]? = some length ∧
      1 ≤ date.month ∧ 1 ≤ date.day ∧ date.day ≤ length := by
  unfold Date.isValid
  cases hlength : (monthLengths (isLeap date.year))[date.month - 1]? with
  | none => simp
  | some length => simp [and_assoc]

/-- The date of a day is a day of the calendar with the number of the day. -/
theorem ofDayNumber_spec (dayNumber : Int) :
    (Date.ofDayNumber dayNumber).isValid = true ∧
      (Date.ofDayNumber dayNumber).dayNumber = dayNumber := by
  obtain ⟨hstart, hnext⟩ := yearOf_spec dayNumber
  rw [yearStart_succ] at hnext
  have hrest : (dayNumber - yearStart (yearOf dayNumber)).toNat
      < (monthLengths (isLeap (yearOf dayNumber))).sum := by
    rw [sum_monthLengths]
    split at hnext <;> split <;> simp_all <;> omega
  obtain ⟨passed, length, hlength, hmonth, hpos, hle, hsum⟩ := monthDay_spec 1 hrest
  have hpassed : 1 + passed - 1 = passed := by omega
  constructor
  · rw [Date.isValid_iff]
    refine ⟨length, ?_, ?_, hpos, hle⟩
    · simp only [Date.ofDayNumber]
      rw [hmonth, hpassed]
      exact hlength
    · simp only [Date.ofDayNumber]
      rw [hmonth]
      omega
  · simp only [Date.dayNumber, Date.ofDayNumber]
    rw [hmonth, hpassed]
    omega

/-- Months and days have two digits. -/
theorem Date.bounds_of_isValid {date : Date} (h : date.isValid = true) :
    date.month < 100 ∧ date.day < 100 := by
  obtain ⟨length, hlength, _, _, hday⟩ := Date.isValid_iff.1 h
  have hmonth : date.month - 1 < 12 := by
    obtain ⟨hlt, _⟩ := List.getElem?_eq_some_iff.1 hlength
    cases hleap : isLeap date.year <;> simpa [monthLengths, hleap] using hlt
  have hlong : ∀ leap, ∀ length ∈ monthLengths leap, length ≤ 31 := by decide
  have hle := hlong _ length (List.mem_of_getElem? hlength)
  omega

end DocGraph.Calendar
