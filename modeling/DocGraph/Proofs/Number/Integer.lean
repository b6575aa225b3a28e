import DocGraph.Number.Binary64
/-!
# Integers as doubles

A finite double is a whole number of units, and it is the one that is nearest to this number.  So an
integer that some double stands for is widened to this double, and every integer up to 2 ^ 53 is
one of them; beyond that the nearest double may stand for another integer.
-/

namespace DocGraph.Binary64

/-! ## Sign and magnitude -/

theorem magnitude_lt (x : Binary64) : x.magnitude < 2 ^ (63 : Nat) :=
  Nat.mod_lt _ (by decide)

theorem toNat_ofMagnitude {magnitude : Nat} (h : magnitude < 2 ^ (63 : Nat)) (negative : Bool) :
    (ofMagnitude negative magnitude).bits.toNat =
      magnitude + if negative then 2 ^ (63 : Nat) else 0 := by
  refine UInt64.toNat_ofNat_of_lt' ?_
  simp only [UInt64.size]
  split <;> omega

theorem magnitude_ofMagnitude {magnitude : Nat} (h : magnitude < 2 ^ (63 : Nat))
    (negative : Bool) : (ofMagnitude negative magnitude).magnitude = magnitude := by
  rw [Binary64.magnitude, toNat_ofMagnitude h]
  split <;> omega

theorem isNegative_ofMagnitude {magnitude : Nat} (h : magnitude < 2 ^ (63 : Nat))
    (negative : Bool) : (ofMagnitude negative magnitude).isNegative = negative := by
  rw [isNegative, toNat_ofMagnitude h]
  cases negative with
  | false =>
      simp only [Bool.false_eq_true, if_false, decide_eq_false_iff_not]
      omega
  | true => simp

/-- A double is its sign and its magnitude. -/
theorem ofMagnitude_magnitude (x : Binary64) : ofMagnitude x.isNegative x.magnitude = x := by
  obtain ⟨bits⟩ := x
  have hbits := bits.toNat_lt
  have hsum : Binary64.magnitude ⟨bits⟩ + (if isNegative ⟨bits⟩ then 2 ^ (63 : Nat) else 0) =
      bits.toNat := by
    simp only [Binary64.magnitude, isNegative, decide_eq_true_eq]
    split <;> omega
  rw [ofMagnitude, hsum, UInt64.ofNat_toNat]

/-! ## Units -/

def signedUnits (x : Binary64) : Int := if x.isNegative then -x.units else x.units

/-- Whether a double stands for exactly this integer. -/
def IsInteger (x : Binary64) (i : Int) : Prop :=
  x.isFinite = true ∧ x.signedUnits = i * unit

/-- A magnitude is small and counts units, or it has a significand of 53 bits. -/
theorem units_cases (x : Binary64) :
    (x.magnitude < 2 ^ (52 : Nat) ∧ x.units = x.magnitude) ∨
    ∃ significand, 2 ^ (52 : Nat) ≤ significand ∧ significand < 2 ^ (53 : Nat) ∧
      x.magnitude = x.exponent * 2 ^ (52 : Nat) + significand ∧
      x.units = significand * 2 ^ x.exponent := by
  by_cases hsmall : x.magnitude < 2 ^ (52 : Nat)
  · refine .inl ⟨hsmall, ?_⟩
    have hexponent : x.exponent = 0 := by
      rw [exponent, Nat.div_eq_of_lt hsmall]
    rw [units, significand, if_pos hsmall, hexponent, Nat.pow_zero, Nat.mul_one]
  · refine .inr ⟨2 ^ (52 : Nat) + x.magnitude % 2 ^ (52 : Nat), by omega, by omega, ?_, ?_⟩
    · rw [exponent]
      omega
    · rw [units, significand, if_neg hsmall]

theorem log2_mul_two_pow {n : Nat} (h : n ≠ 0) (k : Nat) : (n * 2 ^ k).log2 = n.log2 + k := by
  have hpos : 0 < 2 ^ k := Nat.two_pow_pos k
  have hne : n * 2 ^ k ≠ 0 := Nat.mul_ne_zero h (Nat.ne_of_gt hpos)
  refine (Nat.log2_eq_iff hne).2 ⟨?_, ?_⟩
  · rw [Nat.pow_add]
    exact Nat.mul_le_mul_right _ (Nat.log2_self_le h)
  · rw [Nat.add_right_comm, Nat.pow_add]
    exact Nat.mul_lt_mul_of_pos_right Nat.lt_log2_self hpos

/-! ## Rounding -/

theorem roundDiv_mul {n den : Nat} (h : 0 < den) : roundDiv (n * den) den = n := by
  simp [roundDiv, Nat.mul_div_cancel n h]
  omega

theorem roundDiv_le (num den : Nat) : roundDiv num den ≤ num / den + 1 := by
  unfold roundDiv
  dsimp only
  split <;> omega

/-- The magnitude of the double that is nearest to a number of units. -/
def nearestMagnitude (number : Nat) : Nat :=
  (number.log2 - 52) * 2 ^ (52 : Nat) + roundDiv number (2 ^ (number.log2 - 52))

theorem ofInt_eq (i : Int) :
    ofInt i = ofMagnitude (decide (i < 0))
      (min (nearestMagnitude (i.natAbs * unit)) infinityMagnitude) := by
  simp [ofInt, ofRatio, nearestMagnitude]

theorem nearestMagnitude_of_small {number : Nat} (h : number < 2 ^ (52 : Nat)) :
    nearestMagnitude number = number := by
  have hlog : number.log2 - 52 = 0 := by
    by_cases hzero : number = 0
    · simp [hzero]
    · have := (Nat.log2_lt hzero).2 h
      omega
  rw [nearestMagnitude, hlog, Nat.zero_mul, Nat.zero_add, Nat.pow_zero]
  simpa using roundDiv_mul (n := number) Nat.one_pos

theorem nearestMagnitude_mul {significand : Nat} (hlow : 2 ^ (52 : Nat) ≤ significand)
    (hhigh : significand < 2 ^ (53 : Nat)) (exponent : Nat) :
    nearestMagnitude (significand * 2 ^ exponent) = exponent * 2 ^ (52 : Nat) + significand := by
  have hne : significand ≠ 0 := by omega
  have hlog : significand.log2 = 52 := (Nat.log2_eq_iff hne).2 ⟨hlow, hhigh⟩
  rw [nearestMagnitude, log2_mul_two_pow hne, hlog, Nat.add_sub_cancel_left,
    roundDiv_mul (Nat.two_pow_pos exponent)]

theorem nearestMagnitude_units (x : Binary64) : nearestMagnitude x.units = x.magnitude := by
  rcases units_cases x with ⟨hsmall, hunits⟩ | ⟨significand, hlow, hhigh, hmagnitude, hunits⟩
  · rw [hunits, nearestMagnitude_of_small hsmall]
  · rw [hunits, nearestMagnitude_mul hlow hhigh, hmagnitude]

theorem units_eq_zero_iff {x : Binary64} : x.units = 0 ↔ x.magnitude = 0 := by
  rw [← nearestMagnitude_units x]
  constructor
  · intro h
    rw [h]
    rfl
  · intro h
    rcases units_cases x with ⟨_, hunits⟩ | ⟨significand, hlow, _, hmagnitude, _⟩
    · rw [hunits, ← nearestMagnitude_units x, h]
    · rw [← nearestMagnitude_units x, h] at hmagnitude
      omega

theorem isFinite_ofMagnitude {magnitude : Nat} (h : magnitude < infinityMagnitude)
    (negative : Bool) : (ofMagnitude negative magnitude).isFinite = true := by
  have hlt : magnitude < 2 ^ (63 : Nat) := Nat.lt_trans h (by decide)
  simpa [isFinite, magnitude_ofMagnitude hlt] using h

/-- Integers of 64 bits are far below what no double can hold. -/
theorem nearestMagnitude_lt {n k : Nat} (hn : n < 2 ^ (65 : Nat)) (hk : k ≤ 1074) :
    nearestMagnitude (n * 2 ^ k) < infinityMagnitude := by
  by_cases hzero : n = 0
  · rw [hzero, Nat.zero_mul, nearestMagnitude_of_small (by decide)]
    decide
  have hlog : n.log2 < 65 := (Nat.log2_lt hzero).2 hn
  rw [nearestMagnitude, log2_mul_two_pow hzero]
  generalize hexponent : n.log2 + k - 52 = exponent
  have hround : roundDiv (n * 2 ^ k) (2 ^ exponent) ≤ 2 ^ (53 : Nat) := by
    refine Nat.le_trans (roundDiv_le _ _) ((Nat.div_lt_iff_lt_mul (Nat.two_pow_pos _)).2 ?_)
    calc n * 2 ^ k < 2 ^ (n.log2 + 1) * 2 ^ k :=
          Nat.mul_lt_mul_of_pos_right Nat.lt_log2_self (Nat.two_pow_pos _)
      _ = 2 ^ (n.log2 + 1 + k) := (Nat.pow_add ..).symm
      _ ≤ 2 ^ (53 + exponent) := Nat.pow_le_pow_right (by decide) (by omega)
      _ = 2 ^ (53 : Nat) * 2 ^ exponent := Nat.pow_add ..
  rw [infinityMagnitude]
  omega

theorem isFinite_ofInt {i : Int} (h : i.natAbs < 2 ^ (65 : Nat)) : (ofInt i).isFinite = true := by
  have hlt : nearestMagnitude (i.natAbs * unit) < infinityMagnitude := by
    rw [unit]
    exact nearestMagnitude_lt (k := 1074) h (Nat.le_refl _)
  rw [ofInt_eq, Nat.min_eq_left (Nat.le_of_lt hlt)]
  exact isFinite_ofMagnitude hlt _

/-! ## Integers that doubles stand for -/

theorem isNaN_eq_false {x : Binary64} (h : x.isFinite = true) : x.isNaN = false := by
  simp only [isFinite, decide_eq_true_eq] at h
  simp only [isNaN, decide_eq_false_iff_not]
  omega

theorem natAbs_signedUnits (x : Binary64) : x.signedUnits.natAbs = x.units := by
  unfold signedUnits
  split <;> omega

theorem isNegative_eq {x : Binary64} (h : x.units ≠ 0) :
    x.isNegative = decide (x.signedUnits < 0) := by
  unfold signedUnits
  cases x.isNegative with
  | false => simp
  | true =>
      simp only [if_true, Bool.true_eq, decide_eq_true_eq]
      omega

/-- Doubles agree when they stand for the same number, whatever the sign of a zero. -/
theorem agrees_of_signedUnits {x y : Binary64} (hx : x.isFinite = true) (hy : y.isFinite = true)
    (h : x.signedUnits = y.signedUnits) : x.agrees y = true := by
  have hunits : x.units = y.units := by
    rw [← natAbs_signedUnits, h, natAbs_signedUnits]
  have hmagnitude : x.magnitude = y.magnitude := by
    rw [← nearestMagnitude_units x, hunits, nearestMagnitude_units]
  simp only [agrees, isNaN_eq_false hx, isNaN_eq_false hy, Bool.not_false, Bool.true_and,
    Bool.or_eq_true, beq_iff_eq, Bool.and_eq_true]
  by_cases hzero : x.magnitude = 0
  · exact .inr ⟨hzero, hmagnitude ▸ hzero⟩
  · have hne : x.units ≠ 0 := mt units_eq_zero_iff.1 hzero
    have hsign : x.isNegative = y.isNegative := by
      rw [isNegative_eq hne, isNegative_eq (hunits ▸ hne), h]
    refine .inl ?_
    rw [← ofMagnitude_magnitude x, ← ofMagnitude_magnitude y, hmagnitude, hsign]

theorem signedUnits_of_agrees {x y : Binary64} (h : x.agrees y = true) :
    x.signedUnits = y.signedUnits := by
  simp only [agrees, Bool.and_eq_true, Bool.or_eq_true, beq_iff_eq] at h
  obtain ⟨_, rfl | ⟨hx, hy⟩⟩ := h
  · rfl
  · simp [signedUnits, units_eq_zero_iff.2 hx, units_eq_zero_iff.2 hy]

theorem isFinite_of_agrees {x y : Binary64} (h : x.agrees y = true) (hy : y.isFinite = true) :
    x.isFinite = true := by
  simp only [agrees, Bool.and_eq_true, Bool.or_eq_true, beq_iff_eq] at h
  obtain ⟨_, rfl | ⟨hx, _⟩⟩ := h
  · exact hy
  · rw [isFinite, hx]
    rfl

theorem units_congr {x y : Binary64} (h : x.magnitude = y.magnitude) : x.units = y.units := by
  rw [units, units, significand, significand, exponent, exponent, h]

/-- An integer is widened to the double that stands for it, if there is one. -/
theorem isInteger_ofInt_of_units {x : Binary64} {i : Int} (hx : x.isFinite = true)
    (hunits : x.units = i.natAbs * unit) : (ofInt i).IsInteger i := by
  have hmagnitude : x.magnitude < infinityMagnitude := of_decide_eq_true hx
  have hwidened : ofInt i = ofMagnitude (decide (i < 0)) x.magnitude := by
    rw [ofInt_eq, ← hunits, nearestMagnitude_units, Nat.min_eq_left (Nat.le_of_lt hmagnitude)]
  have hsame : (ofInt i).units = i.natAbs * unit := by
    rw [hwidened, ← hunits]
    exact units_congr (magnitude_ofMagnitude x.magnitude_lt _)
  refine ⟨hwidened ▸ isFinite_ofMagnitude hmagnitude _, ?_⟩
  have hsign : (ofInt i).isNegative = decide (i < 0) := by
    rw [hwidened, isNegative_ofMagnitude x.magnitude_lt]
  simp only [signedUnits, hsame, hsign, decide_eq_true_eq, Int.natCast_mul]
  split
  · rw [← Int.neg_mul]
    congr 1
    omega
  · congr 1
    omega

theorem isInteger_ofInt_of_isInteger {x : Binary64} {i : Int} (h : x.IsInteger i) :
    (ofInt i).IsInteger i := by
  refine isInteger_ofInt_of_units h.1 ?_
  rw [← natAbs_signedUnits, h.2, Int.natAbs_mul, Int.natAbs_natCast]

/-- A double agrees with an integer that is widened without loss when it stands for the integer. -/
theorem agrees_ofInt_iff {x : Binary64} {i : Int} (h : (ofInt i).IsInteger i) :
    x.agrees (ofInt i) = true ↔ x.IsInteger i :=
  ⟨fun hagrees => ⟨isFinite_of_agrees hagrees h.1, (signedUnits_of_agrees hagrees).trans h.2⟩,
    fun hinteger => agrees_of_signedUnits hinteger.1 h.1 (hinteger.2.trans h.2.symm)⟩

theorem units_ofMagnitude {significand exponent : Nat} (hlow : 2 ^ (52 : Nat) ≤ significand)
    (hhigh : significand < 2 ^ (53 : Nat))
    (h : exponent * 2 ^ (52 : Nat) + significand < 2 ^ (63 : Nat)) (negative : Bool) :
    (ofMagnitude negative (exponent * 2 ^ (52 : Nat) + significand)).units =
      significand * 2 ^ exponent := by
  have hsignificand : 2 ^ (52 : Nat) + (exponent * 2 ^ (52 : Nat) + significand) % 2 ^ (52 : Nat) =
      significand := by omega
  have hexponent : (exponent * 2 ^ (52 : Nat) + significand) / 2 ^ (52 : Nat) - 1 = exponent := by
    omega
  rw [units, Binary64.significand, Binary64.exponent, magnitude_ofMagnitude h, if_neg (by omega),
    hsignificand, hexponent]

/-- Whatever has at most 53 bits is a significand and a power of two. -/
theorem exists_significand {n : Nat} (hpos : n ≠ 0) (h : n ≤ 2 ^ (53 : Nat)) {k : Nat}
    (hk : 52 ≤ k) : ∃ significand exponent, 2 ^ (52 : Nat) ≤ significand ∧
      significand < 2 ^ (53 : Nat) ∧ exponent ≤ k + 1 ∧
      n * 2 ^ k = significand * 2 ^ exponent := by
  by_cases hlast : n = 2 ^ (53 : Nat)
  · refine ⟨2 ^ (52 : Nat), k + 1, Nat.le_refl _, by decide, Nat.le_refl _, ?_⟩
    rw [hlast, Nat.pow_succ 2 52, Nat.mul_assoc, ← Nat.pow_succ']
  · have hlog : n.log2 < 53 := (Nat.log2_lt hpos).2 (by omega)
    have hlow := Nat.mul_le_mul_right (2 ^ (52 - n.log2)) (Nat.log2_self_le hpos)
    have hhigh := Nat.mul_lt_mul_of_pos_right (Nat.lt_log2_self (n := n))
      (Nat.two_pow_pos (52 - n.log2))
    rw [← Nat.pow_add] at hlow hhigh
    rw [show n.log2 + (52 - n.log2) = 52 by omega] at hlow
    rw [show n.log2 + 1 + (52 - n.log2) = 53 by omega] at hhigh
    refine ⟨n * 2 ^ (52 - n.log2), k - (52 - n.log2), hlow, hhigh, by omega, ?_⟩
    rw [Nat.mul_assoc, ← Nat.pow_add]
    congr 2
    omega

/-- Nothing is lost where an integer up to 2 ^ 53 is widened. -/
theorem isInteger_ofInt {i : Int} (h : i.natAbs ≤ 2 ^ (53 : Nat)) : (ofInt i).IsInteger i := by
  by_cases hzero : i.natAbs = 0
  · refine isInteger_ofInt_of_units (x := zero false) (by decide) ?_
    rw [hzero, Nat.zero_mul]
    decide
  · obtain ⟨significand, exponent, hlow, hhigh, hexponent, hunits⟩ :=
      exists_significand hzero h (show 52 ≤ 1074 by decide)
    have hfinite : exponent * 2 ^ (52 : Nat) + significand < infinityMagnitude := by
      rw [infinityMagnitude]
      omega
    refine isInteger_ofInt_of_units (isFinite_ofMagnitude hfinite false) ?_
    rw [units_ofMagnitude hlow hhigh (Nat.lt_trans hfinite (by decide)), unit, hunits]

/-! ## Rounding -/

/-- Whether a double is what an integer is widened to although no double stands for it. -/
def Rounds (x : Binary64) (i : Int) : Prop := x = ofInt i ∧ ¬x.IsInteger i

theorem magnitude_ofInt (i : Int) :
    (ofInt i).magnitude = min (nearestMagnitude (i.natAbs * unit)) infinityMagnitude := by
  rw [ofInt_eq, magnitude_ofMagnitude (Nat.lt_of_le_of_lt (Nat.min_le_right _ _) (by decide))]

theorem isNaN_ofInt (i : Int) : (ofInt i).isNaN = false := by
  simp only [isNaN, magnitude_ofInt, decide_eq_false_iff_not]
  omega

theorem magnitude_ofInt_ne_zero {i : Int} (h : i ≠ 0) : (ofInt i).magnitude ≠ 0 := by
  have hlarge : 2 ^ (53 : Nat) ≤ i.natAbs * unit := by
    calc 2 ^ (53 : Nat) ≤ unit := by decide +kernel
      _ ≤ i.natAbs * unit := Nat.le_mul_of_pos_left _ (by omega)
  have hlog : 53 ≤ (i.natAbs * unit).log2 := (Nat.le_log2 (by omega)).2 hlarge
  have hpos : 0 < nearestMagnitude (i.natAbs * unit) := by
    unfold nearestMagnitude
    omega
  have hinfinity : 0 < infinityMagnitude := by decide
  rw [magnitude_ofInt]
  omega

/-- A double agrees with an integer that is widened when it stands for the integer, and otherwise
only when the integer is rounded to it. -/
theorem agrees_ofInt_iff_or {x : Binary64} {i : Int} :
    x.agrees (ofInt i) = true ↔ x.IsInteger i ∨ x.Rounds i := by
  by_cases hexact : (ofInt i).IsInteger i
  · have hnot : ¬x.Rounds i := fun h => h.2 (h.1 ▸ hexact)
    rw [agrees_ofInt_iff hexact, or_iff_left hnot]
  · have hnot : ¬x.IsInteger i := mt isInteger_ofInt_of_isInteger hexact
    have hne : i ≠ 0 := by
      rintro rfl
      exact hexact (isInteger_ofInt (by decide))
    rw [or_iff_right hnot]
    constructor
    · intro h
      simp only [agrees, Bool.and_eq_true, Bool.or_eq_true, beq_iff_eq] at h
      obtain ⟨_, hsame | ⟨_, hzero⟩⟩ := h
      · exact ⟨hsame, hnot⟩
      · exact absurd hzero (magnitude_ofInt_ne_zero hne)
    · rintro ⟨rfl, _⟩
      simp [agrees, isNaN_ofInt]

end DocGraph.Binary64
