import DocGraph.Proofs.Text.Digits
import DocGraph.Uuid
/-!
# UUIDs are read back

A UUID is read back from its text, digit by digit, once the hyphens are taken out again.
-/

namespace DocGraph.Uuid

theorem hyphenate_cons (width next : Nat) (widths : List Nat) (digits : List Char) :
    hyphenate (width :: next :: widths) digits
      = digits.take width ++ '-' :: hyphenate (next :: widths) (digits.drop width) := rfl

theorem unhyphenate?_append {width : Nat} {group : List Char} (hgroup : group.length = width)
    (next : Nat) (widths : List Nat) (rest : List Char) :
    unhyphenate? (width :: next :: widths) (group ++ '-' :: rest)
      = (unhyphenate? (next :: widths) rest).map (group ++ ·) := by
  rw [unhyphenate?.eq_def]
  dsimp only
  rw [List.drop_left' hgroup, List.take_left' hgroup]
  cases hrest : unhyphenate? (next :: widths) rest <;> simp [hrest]

theorem unhyphenate?_hyphenate {widths : List Nat} {digits : List Char}
    (h : widths.sum ≤ digits.length) :
    unhyphenate? widths (hyphenate widths digits) = some digits := by
  induction widths generalizing digits with
  | nil => rfl
  | cons width widths ih =>
      cases widths with
      | nil => rfl
      | cons next widths =>
          rw [List.sum_cons] at h
          have hgroup : (digits.take width).length = width := by
            rw [List.length_take]
            omega
          have hdrop : (next :: widths).sum ≤ (digits.drop width).length := by
            rw [List.length_drop]
            omega
          rw [hyphenate_cons, unhyphenate?_append hgroup, ih hdrop, Option.map_some,
            List.take_append_drop]

theorem length_hyphenate {widths : List Nat} {digits : List Char}
    (h : widths.sum ≤ digits.length) :
    (hyphenate widths digits).length = digits.length + (widths.length - 1) := by
  induction widths generalizing digits with
  | nil => rfl
  | cons width widths ih =>
      cases widths with
      | nil => rfl
      | cons next widths =>
          rw [List.sum_cons] at h
          have hdrop : (next :: widths).sum ≤ (digits.drop width).length := by
            rw [List.length_drop]
            omega
          rw [hyphenate_cons, List.length_append, List.length_cons, ih hdrop, List.length_take,
            List.length_drop]
          simp only [List.length_cons]
          omega

theorem foldlM_digits {value : Nat} (h : value < 16 ^ (32 : Nat)) {count : Nat}
    (hcount : count ≤ 32) :
    ((List.range count).map fun i => Nat.digitChar (value / 16 ^ (31 - i) % 16)).foldlM
      (fun n c => do return 16 * n + (← Text.hexValue? c)) 0
      = some (value / 16 ^ (32 - count)) := by
  induction count with
  | zero =>
      rw [Nat.div_eq_of_lt h]
      rfl
  | succ count ih =>
      have hdigit : value / 16 ^ (31 - count) % 16 < 16 := Nat.mod_lt _ (by decide)
      have hpower : 16 ^ (32 - count) = 16 ^ (31 - count) * 16 := by
        rw [← Nat.pow_succ]
        congr 1
        omega
      rw [List.range_succ, List.map_append, List.foldlM_append, ih (by omega), hpower,
        ← Nat.div_div_eq_div_mul, show 32 - (count + 1) = 31 - count from by omega]
      simp only [List.map_cons, List.map_nil, List.foldlM_cons, List.foldlM_nil,
        Text.hexValue?_digitChar hdigit, Option.bind_eq_bind, Option.bind_some, Option.pure_def,
        Option.some.injEq]
      omega

theorem length_digits (id : Uuid) : id.digits.length = 32 := by
  rw [digits, List.length_map, List.length_range]

theorem ofDigits?_digits (id : Uuid) : ofDigits? id.digits = some id := by
  have hvalue : id.value.toNat < 16 ^ 32 := id.value.isLt
  have hfold := foldlM_digits hvalue (Nat.le_refl 32)
  unfold ofDigits?
  rw [if_neg (by simp [length_digits])]
  rw [digits, hfold]
  simp

theorem ofText?_text (id : Uuid) : ofText? id.text = some id := by
  have hsum : groups.sum ≤ id.digits.length := by
    rw [length_digits]
    decide
  have hlength : (hyphenate groups id.digits).length = 36 := by
    rw [length_hyphenate hsum, length_digits]
    rfl
  rw [ofText?, text, String.toList_ofList, ofChars?]
  simp [hlength, unhyphenate?_hyphenate hsum, ofDigits?_digits]

end DocGraph.Uuid
