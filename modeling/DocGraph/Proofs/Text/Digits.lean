import DocGraph.Number.Instances
import DocGraph.Text.Digits
/-!
# Digits are read back

A number written with zeros in front is read back, and so are hexadecimal digits.
-/

namespace DocGraph.Text

theorem foldlM_decimal {digits : List Char} (h : ∀ c ∈ digits, c.isDigit = true) (n : Nat) :
    digits.foldlM (fun n c => if c.isDigit then some (10 * n + (c.toNat - '0'.toNat)) else none) n
      = some (Nat.ofDigitChars 10 digits n) := by
  induction digits generalizing n with
  | nil => rfl
  | cons c digits ih =>
      rw [List.foldlM_cons, if_pos (h c List.mem_cons_self), Nat.ofDigitChars_cons]
      exact ih (fun d hd => h d (List.mem_cons_of_mem _ hd)) _

theorem decimal?_of_digits {digits : List Char} (h : ∀ c ∈ digits, c.isDigit = true) :
    decimal? digits = some (Nat.ofDigitChars 10 digits 0) :=
  foldlM_decimal h 0

section

variable {width n : Nat}

theorem isDigit_of_mem_padded {c : Char} (h : c ∈ padded width n) : c.isDigit = true := by
  rcases List.mem_append.1 h with h | h
  · rw [(List.mem_replicate.1 h).2]
    decide
  · exact Nat.isDigit_of_mem_toDigits (by decide) (by decide) h

theorem length_padded (hwidth : 0 < width) (hn : n < 10 ^ width) :
    (padded width n).length = width := by
  have hdigits := (Nat.length_toDigits_le_iff (by decide) hwidth).2 hn
  simp only [padded, List.length_append, List.length_replicate]
  omega

theorem ofDigitChars_padded : Nat.ofDigitChars 10 (padded width n) 0 = n := by
  rw [padded, Nat.ofDigitChars_append, Nat.ofDigitChars_replicate_zero, Nat.mul_zero]
  exact Nat.ofDigitChars_ten_toDigits

theorem decimal?_padded : decimal? (padded width n) = some n := by
  rw [decimal?_of_digits fun _ => isDigit_of_mem_padded, ofDigitChars_padded]

/-- Zeros behind a number count as its last digits. -/
theorem decimal?_padded_zeros (zeros : Nat) :
    decimal? (padded width n ++ List.replicate zeros '0') = some (10 ^ zeros * n) := by
  have hdigits : ∀ c ∈ padded width n ++ List.replicate zeros '0', c.isDigit = true := by
    intro c hc
    rcases List.mem_append.1 hc with hc | hc
    · exact isDigit_of_mem_padded hc
    · rw [(List.mem_replicate.1 hc).2]
      decide
  rw [decimal?_of_digits hdigits, Nat.ofDigitChars_append, ofDigitChars_padded,
    Nat.ofDigitChars_replicate_zero]

end

theorem hexValue?_digitChar {n : Nat} (h : n < 16) : hexValue? (Nat.digitChar n) = some n := by
  have digits : ∀ n : Fin 16, hexValue? (Nat.digitChar n) = some n.val := by decide
  exact digits ⟨n, h⟩

end DocGraph.Text
