import DocGraph.Proofs.Http.Path
/-!
# Which escapes are read

A segment is read exactly if an escape stands behind every percent sign and the bytes that are left
are those of a text.  An escape is two hexadecimal digits; the reader also takes a plus sign for the
first one.
-/

namespace DocGraph

namespace Text

/-! ## Escapes -/

def IsHexDigit (c : Char) : Prop :=
  ('0' ≤ c ∧ c ≤ '9') ∨ ('a' ≤ c ∧ c ≤ 'f') ∨ ('A' ≤ c ∧ c ≤ 'F')

instance (c : Char) : Decidable (IsHexDigit c) := by
  unfold IsHexDigit
  infer_instance

def IsOctetStart (c : Char) : Prop := c = '+' ∨ IsHexDigit c

/-- Whether a character of a class and a digit stand behind every percent sign. -/
def EscapesBegin (first : Char → Prop) (chars : List Char) : Prop :=
  ∀ before after, chars = before ++ '%' :: after →
    ∃ high low rest, after = high :: low :: rest ∧ first high ∧ IsHexDigit low

def octet (high low : Char) : UInt8 :=
  UInt8.ofNat (16 * (hexValue? high).getD 0 + (hexValue? low).getD 0)

/-- The bytes of a text with a single byte in the place of each escape. -/
def unescaped : List Char → List UInt8
  | [] => []
  | '%' :: high :: low :: rest => octet high low :: unescaped rest
  | c :: rest => String.utf8EncodeChar c ++ unescaped rest

theorem isSome_hexValue?_iff {c : Char} : (hexValue? c).isSome ↔ IsHexDigit c := by
  unfold hexValue? IsHexDigit
  by_cases hdigit : '0' ≤ c ∧ c ≤ '9'
  · simp [hdigit]
  · by_cases hlower : 'a' ≤ c ∧ c ≤ 'f'
    · simp [hdigit, hlower]
    · simp [hdigit, hlower]

theorem IsHexDigit.ne_percent {c : Char} (h : IsHexDigit c) : c ≠ '%' := by
  rintro rfl
  exact absurd h (by decide)

theorem IsOctetStart.ne_percent {c : Char} (h : IsOctetStart c) : c ≠ '%' := by
  rcases h with rfl | h
  · decide
  · exact h.ne_percent

theorem octet?_eq_some_iff {high low : Char} {byte : UInt8} :
    octet? high low = some byte ↔
      IsOctetStart high ∧ IsHexDigit low ∧ byte = octet high low := by
  have hplus : hexValue? '+' = none := by decide
  unfold octet? IsOctetStart octet
  rw [← isSome_hexValue?_iff, ← isSome_hexValue?_iff]
  by_cases hsign : high = '+'
  · cases hlow : hexValue? low <;> simp [hsign, hplus, eq_comm]
  · cases hhigh : hexValue? high <;> cases hlow : hexValue? low <;> simp [hsign, eq_comm]

section

variable {first : Char → Prop} {c : Char} {rest : List Char}

theorem escapesBegin_nil : EscapesBegin first [] := by
  intro before after h
  simp at h

theorem escapesBegin_cons_of_ne (h : c ≠ '%') :
    EscapesBegin first (c :: rest) ↔ EscapesBegin first rest := by
  constructor
  · intro hall before after hrest
    exact hall (c :: before) after (congrArg (c :: ·) hrest)
  · intro hall before after hchars
    cases before with
    | nil => exact absurd (List.cons.inj hchars).1 h
    | cons d before => exact hall before after (List.cons.inj hchars).2

theorem escapesBegin_percent : EscapesBegin first ('%' :: rest) ↔
    (∃ high low others, rest = high :: low :: others ∧ first high ∧ IsHexDigit low) ∧
      EscapesBegin first rest := by
  constructor
  · intro hall
    exact ⟨hall [] rest rfl, fun before after h => hall ('%' :: before) after (congrArg _ h)⟩
  · rintro ⟨hrest, hall⟩ before after hchars
    cases before with
    | nil => exact (List.cons.inj hchars).2 ▸ hrest
    | cons d before => exact hall before after (List.cons.inj hchars).2

/-- No escape begins inside another one. -/
theorem escapesBegin_escape (hfirst : ∀ c, first c → c ≠ '%') {high low : Char} :
    EscapesBegin first ('%' :: high :: low :: rest) ↔
      first high ∧ IsHexDigit low ∧ EscapesBegin first rest := by
  rw [escapesBegin_percent]
  constructor
  · rintro ⟨⟨high', low', others, heq, hhigh, hlow⟩, hall⟩
    obtain ⟨rfl, htail⟩ := List.cons.inj heq
    obtain ⟨rfl, rfl⟩ := List.cons.inj htail
    rw [escapesBegin_cons_of_ne (hfirst _ hhigh), escapesBegin_cons_of_ne hlow.ne_percent] at hall
    exact ⟨hhigh, hlow, hall⟩
  · rintro ⟨hhigh, hlow, hall⟩
    rw [escapesBegin_cons_of_ne (hfirst _ hhigh), escapesBegin_cons_of_ne hlow.ne_percent]
    exact ⟨⟨high, low, rest, rfl, hhigh, hlow⟩, hall⟩

end

/-- Escapes begin with digits exactly if the reader takes them and none begins with a sign. -/
theorem escapesBegin_isHexDigit_iff {chars : List Char} :
    EscapesBegin IsHexDigit chars ↔
      EscapesBegin IsOctetStart chars ∧ ¬['%', '+'] <:+: chars := by
  constructor
  · intro hall
    constructor
    · intro before after hchars
      obtain ⟨high, low, rest, hafter, hhigh, hlow⟩ := hall before after hchars
      exact ⟨high, low, rest, hafter, .inr hhigh, hlow⟩
    · rintro ⟨before, after, hchars⟩
      obtain ⟨high, low, rest, hafter, hhigh, _⟩ :=
        hall before ('+' :: after) (by simpa using hchars.symm)
      obtain ⟨rfl, _⟩ := List.cons.inj hafter
      exact absurd hhigh (by decide)
  · rintro ⟨hall, hsign⟩ before after hchars
    obtain ⟨high, low, rest, hafter, hhigh, hlow⟩ := hall before after hchars
    rcases hhigh with rfl | hhigh
    · exact absurd ⟨before, low :: rest, by simp [hchars, hafter]⟩ hsign
    · exact ⟨high, low, rest, hafter, hhigh, hlow⟩

/-! ## Reading -/

theorem percentBytes?_eq_some_iff {chars : List Char} {bytes : List UInt8} :
    percentBytes? chars = some bytes ↔
      EscapesBegin IsOctetStart chars ∧ bytes = unescaped chars := by
  have hstart : ∀ c, IsOctetStart c → c ≠ '%' := fun _ => IsOctetStart.ne_percent
  fun_induction unescaped chars generalizing bytes with
  | case1 => simp [percentBytes?, escapesBegin_nil, eq_comm]
  | case2 high low rest ih =>
      rw [escapesBegin_escape hstart]
      constructor
      · intro h
        obtain ⟨byte, hbyte, h⟩ := Option.bind_eq_some_iff.1 h
        obtain ⟨others, hothers, h⟩ := Option.bind_eq_some_iff.1 h
        obtain ⟨hhigh, hlow, rfl⟩ := octet?_eq_some_iff.1 hbyte
        obtain ⟨hrest, rfl⟩ := ih.1 hothers
        exact ⟨⟨hhigh, hlow, hrest⟩, (Option.some.inj h).symm⟩
      · rintro ⟨⟨hhigh, hlow, hrest⟩, rfl⟩
        have hbyte := octet?_eq_some_iff.2 ⟨hhigh, hlow, rfl⟩
        have hothers := ih.2 ⟨hrest, rfl⟩
        simp [percentBytes?, hbyte, hothers]
  | case3 c rest hescape ih =>
      by_cases hc : c = '%'
      · -- A percent sign with fewer than two characters behind it is no escape.
        subst hc
        have hnone : ¬EscapesBegin IsOctetStart ('%' :: rest) := by
          intro hall
          obtain ⟨high, low, others, hrest, _⟩ := (escapesBegin_percent.1 hall).1
          exact hescape high low others rfl hrest
        simp [percentBytes?, hnone]
      · rw [percentBytes?_cons_of_ne hc, escapesBegin_cons_of_ne hc, Option.map_eq_some_iff]
        constructor
        · rintro ⟨others, hothers, rfl⟩
          obtain ⟨hrest, rfl⟩ := ih.1 hothers
          exact ⟨hrest, rfl⟩
        · rintro ⟨hrest, rfl⟩
          exact ⟨unescaped rest, ih.2 ⟨hrest, rfl⟩, rfl⟩

theorem fromUTF8?_eq_some_iff {bytes : ByteArray} {text : String} :
    String.fromUTF8? bytes = some text ↔ text.toByteArray = bytes := by
  constructor
  · intro h
    unfold String.fromUTF8? at h
    split at h
    · obtain rfl := Option.some.inj h
      rfl
    · cases h
  · rintro rfl
    exact fromUTF8?_toByteArray text

/-- Whether one text is another one with escapes that begin with a character of a class. -/
def IsEscaped (first : Char → Prop) (escaped text : String) : Prop :=
  EscapesBegin first escaped.toList ∧ text.toByteArray = ⟨(unescaped escaped.toList).toArray⟩

theorem percentDecode?_eq_some_iff {escaped text : String} :
    percentDecode? escaped = some text ↔ IsEscaped IsOctetStart escaped text := by
  unfold percentDecode? IsEscaped
  rw [Option.bind_eq_bind, Option.bind_eq_some_iff]
  constructor
  · rintro ⟨bytes, hbytes, htext⟩
    obtain ⟨hescapes, rfl⟩ := percentBytes?_eq_some_iff.1 hbytes
    exact ⟨hescapes, fromUTF8?_eq_some_iff.1 htext⟩
  · rintro ⟨hescapes, htext⟩
    exact ⟨_, percentBytes?_eq_some_iff.2 ⟨hescapes, rfl⟩, fromUTF8?_eq_some_iff.2 htext⟩

end Text

namespace Http

open Text

/-- A segment is read as a text exactly if it is that text with escapes, each of which begins with a
digit or a plus sign.  Those without such a sign are the ones whose escapes are two digits each, and
what escaping makes of a text is one of them. -/
theorem decodeSegment?_eq_some_iff (segment text : String) :
    (decodeSegment? segment = some text ↔ IsEscaped IsOctetStart segment text) ∧
    (IsEscaped IsHexDigit segment text ↔
      decodeSegment? segment = some text ∧ ¬['%', '+'] <:+: segment.toList) ∧
    IsEscaped IsHexDigit (encodeSegment text) text ∧
    decodeSegment? (encodeSegment text) = some text := by
  have hreads (segment : String) :
      decodeSegment? segment = some text ↔ IsEscaped IsOctetStart segment text :=
    percentDecode?_eq_some_iff
  have hdigits (segment : String) : IsEscaped IsHexDigit segment text ↔
      decodeSegment? segment = some text ∧ ¬['%', '+'] <:+: segment.toList := by
    rw [hreads, IsEscaped, IsEscaped, escapesBegin_isHexDigit_iff]
    exact and_right_comm
  have hencoded := decodeSegment?_encodeSegment text
  have hsign : '+' ∉ (encodeSegment text).toList :=
    not_mem_percentEncode (by decide) (by decide) (by decide) text
  have hnone : ¬['%', '+'] <:+: (encodeSegment text).toList :=
    fun h => hsign (h.subset (by simp))
  exact ⟨hreads segment, hdigits segment, (hdigits _).2 ⟨hencoded, hnone⟩, hencoded⟩

/-- An escape with a sign is read, though it is not two digits. -/
theorem decodeSegment?_sign :
    decodeSegment? "%+5" = some "\x05" ∧ ¬IsEscaped IsHexDigit "%+5" "\x05" := by
  refine ⟨by decide +kernel, ?_⟩
  rintro ⟨hescapes, _⟩
  have hdigit := ((escapesBegin_escape fun _ => IsHexDigit.ne_percent).1 hescapes).1
  exact absurd hdigit (by decide)

end Http

end DocGraph
