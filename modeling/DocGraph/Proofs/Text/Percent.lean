import DocGraph.Text.Percent
/-!
# Escapes are read back

A text whose unsafe characters were escaped is read back, whatever its characters are, as long
as the percent sign itself is not safe.
-/

namespace DocGraph.Text

theorem hexValue?_upperHexDigit {n : Nat} (h : n < 16) : hexValue? (upperHexDigit n) = some n := by
  have digits : ∀ n : Fin 16, hexValue? (upperHexDigit n) = some n.val := by decide
  exact digits ⟨n, h⟩

theorem upperHexDigit_ne {c : Char} (hc : hexValue? c = none) {n : Nat} (h : n < 16) :
    upperHexDigit n ≠ c := by
  intro heq
  rw [← heq, hexValue?_upperHexDigit h] at hc
  exact absurd hc (by simp)

theorem octet?_digits (b : UInt8) :
    octet? (upperHexDigit (b.toNat / 16)) (upperHexDigit (b.toNat % 16)) = some b := by
  have hb : b.toNat < 256 := b.toNat_lt
  have hhigh : b.toNat / 16 < 16 := by omega
  have hlow : b.toNat % 16 < 16 := by omega
  have hplus : upperHexDigit (b.toNat / 16) ≠ '+' := upperHexDigit_ne (by decide) hhigh
  have hsum : 16 * (b.toNat / 16) + b.toNat % 16 = b.toNat := by omega
  simp only [octet?, hplus, if_false, hexValue?_upperHexDigit hhigh, hexValue?_upperHexDigit hlow,
    Option.bind_eq_bind, Option.bind_some, Option.pure_def, hsum, UInt8.ofNat_toNat]

theorem percentBytes?_percentByte (b : UInt8) (rest : List Char) :
    percentBytes? (percentByte b ++ rest) = (percentBytes? rest).map (b :: ·) := by
  simp only [percentByte, List.cons_append, List.nil_append, percentBytes?, octet?_digits]
  cases percentBytes? rest <;> rfl

theorem percentBytes?_flatMap_percentByte (bytes : List UInt8) (rest : List Char) :
    percentBytes? (bytes.flatMap percentByte ++ rest) =
      (percentBytes? rest).map (bytes ++ ·) := by
  induction bytes with
  | nil => simp
  | cons b bytes ih =>
      rw [List.flatMap_cons, List.append_assoc, percentBytes?_percentByte, ih, Option.map_map]
      rfl

theorem percentBytes?_cons_of_ne {c : Char} (h : c ≠ '%') (rest : List Char) :
    percentBytes? (c :: rest) = (percentBytes? rest).map (String.utf8EncodeChar c ++ ·) := by
  rw [percentBytes?, if_neg h]
  intro _ _ _ heq
  exact absurd heq h

theorem percentBytes?_percentChar {safe : Char → Bool} (h : safe '%' = false) (c : Char)
    (rest : List Char) :
    percentBytes? (percentChar safe c ++ rest) =
      (percentBytes? rest).map (String.utf8EncodeChar c ++ ·) := by
  unfold percentChar
  split
  · have hne : c ≠ '%' := by
      intro heq
      simp_all
    rw [List.cons_append, List.nil_append, percentBytes?_cons_of_ne hne]
  · rw [percentBytes?_flatMap_percentByte]

theorem percentBytes?_percentEncode {safe : Char → Bool} (h : safe '%' = false)
    (chars : List Char) :
    percentBytes? (chars.flatMap (percentChar safe)) =
      some (chars.flatMap String.utf8EncodeChar) := by
  induction chars with
  | nil => rfl
  | cons c chars ih =>
      rw [List.flatMap_cons, percentBytes?_percentChar h, ih]
      rfl

theorem fromUTF8?_toByteArray (s : String) : String.fromUTF8? s.toByteArray = some s := by
  unfold String.fromUTF8?
  rw [dif_pos s.isValidUTF8]
  rfl

/-- Every text is read back from its escaped form. -/
theorem percentDecode?_percentEncode {safe : Char → Bool} (h : safe '%' = false) (s : String) :
    percentDecode? (percentEncode safe s) = some s := by
  have hbytes : ByteArray.mk (s.toList.flatMap String.utf8EncodeChar).toArray = s.toByteArray := by
    apply ByteArray.ext
    rw [← String.utf8Encode_toList, List.utf8Encode, List.data_toByteArray]
  simp only [percentDecode?, percentEncode, String.toList_ofList, percentBytes?_percentEncode h,
    Option.bind_eq_bind, Option.bind_some, hbytes, fromUTF8?_toByteArray]

theorem percentEncode_injective {safe : Char → Bool} (h : safe '%' = false) :
    Function.Injective (percentEncode safe) := by
  intro first second heq
  have hread := congrArg percentDecode? heq
  rw [percentDecode?_percentEncode h, percentDecode?_percentEncode h] at hread
  exact Option.some.inj hread

/-- A character that is neither safe, nor the percent sign, nor a digit is always escaped. -/
theorem not_mem_percentEncode {safe : Char → Bool} {c : Char} (hsafe : safe c = false)
    (hpercent : c ≠ '%') (hdigit : hexValue? c = none) (s : String) :
    c ∉ (percentEncode safe s).toList := by
  intro hmem
  rw [percentEncode, String.toList_ofList] at hmem
  obtain ⟨d, _, hmem⟩ := List.mem_flatMap.1 hmem
  unfold percentChar at hmem
  split at hmem
  · have heq : c = d := List.mem_singleton.1 hmem
    simp_all
  · obtain ⟨b, _, hmem⟩ := List.mem_flatMap.1 hmem
    have hb : b.toNat < 256 := b.toNat_lt
    simp only [percentByte, List.mem_cons, List.not_mem_nil, or_false] at hmem
    rcases hmem with h | h | h
    · exact hpercent h
    · exact upperHexDigit_ne hdigit (by omega) h.symm
    · exact upperHexDigit_ne hdigit (by omega) h.symm

/-! ## The form of an escaped text -/

def isUpperHexDigit (c : Char) : Bool := "0123456789ABCDEF".toList.contains c

theorem isUpperHexDigit_upperHexDigit {n : Nat} (h : n < 16) :
    isUpperHexDigit (upperHexDigit n) = true := by
  have digits : ∀ n : Fin 16, isUpperHexDigit (upperHexDigit n) = true := by decide
  exact digits ⟨n, h⟩

/-- A text of safe characters and of escapes, which are two digits behind a percent sign. -/
inductive Escaped (safe : Char → Bool) : List Char → Prop where
  | nil : Escaped safe []
  | char {c : Char} {rest : List Char} (hc : safe c = true) (hrest : Escaped safe rest) :
      Escaped safe (c :: rest)
  | escape {high low : Char} {rest : List Char} (hhigh : isUpperHexDigit high = true)
      (hlow : isUpperHexDigit low = true) (hrest : Escaped safe rest) :
      Escaped safe ('%' :: high :: low :: rest)

namespace Escaped

variable {safe safe' : Char → Bool} {chars others : List Char}

theorem append (h : Escaped safe chars) (hothers : Escaped safe others) :
    Escaped safe (chars ++ others) := by
  induction h with
  | nil => exact hothers
  | char hc _ ih => exact .char hc ih
  | escape hhigh hlow _ ih => exact .escape hhigh hlow ih

theorem mono (h : Escaped safe chars) (hsafe : ∀ c, safe c = true → safe' c = true) :
    Escaped safe' chars := by
  induction h with
  | nil => exact .nil
  | char hc _ ih => exact .char (hsafe _ hc) ih
  | escape hhigh hlow _ ih => exact .escape hhigh hlow ih

theorem intercalate {separator : Char} (hseparator : safe separator = true)
    {parts : List (List Char)} (hparts : ∀ part ∈ parts, Escaped safe part) :
    Escaped safe ([separator].intercalate parts) := by
  induction parts with
  | nil => exact .nil
  | cons part parts ih =>
      obtain ⟨hpart, hparts⟩ := List.forall_mem_cons.1 hparts
      cases parts with
      | nil =>
          rw [List.intercalate_singleton]
          exact hpart
      | cons next parts =>
          rw [List.intercalate_cons_cons, List.append_assoc]
          exact hpart.append (.char hseparator (ih hparts))

end Escaped

theorem escaped_percentByte (safe : Char → Bool) (b : UInt8) : Escaped safe (percentByte b) := by
  have hb : b.toNat < 256 := b.toNat_lt
  exact .escape (isUpperHexDigit_upperHexDigit (by omega))
    (isUpperHexDigit_upperHexDigit (by omega)) .nil

theorem escaped_flatMap {α : Type} {safe : Char → Bool} {write : α → List Char}
    (h : ∀ a, Escaped safe (write a)) (items : List α) : Escaped safe (items.flatMap write) := by
  induction items with
  | nil => exact .nil
  | cons item items ih =>
      rw [List.flatMap_cons]
      exact (h item).append ih

theorem escaped_percentEncode (safe : Char → Bool) (s : String) :
    Escaped safe (percentEncode safe s).toList := by
  rw [percentEncode, String.toList_ofList]
  refine escaped_flatMap (fun c => ?_) _
  unfold percentChar
  split
  · rename_i hc
    exact .char hc .nil
  · exact escaped_flatMap (escaped_percentByte safe) _

end DocGraph.Text
