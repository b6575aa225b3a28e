import DocGraph.Text.Parts
/-!
# Cutting undoes joining

A text joined from parts falls into these parts again, unless one of them holds the separator.  Of
two parts only the first one must not hold it.
-/

namespace DocGraph.Text

theorem splitChars_of_not_mem {separator : Char} {chars : List Char} (h : separator ∉ chars) :
    splitChars separator chars = [chars] := by
  induction chars with
  | nil => rfl
  | cons c chars ih =>
      obtain ⟨hc, hchars⟩ := List.ne_and_not_mem_of_not_mem_cons h
      rw [splitChars, if_neg (Ne.symm hc), ih hchars]

theorem splitChars_append_cons {separator : Char} {chars : List Char} (h : separator ∉ chars)
    (rest : List Char) :
    splitChars separator (chars ++ separator :: rest) = chars :: splitChars separator rest := by
  induction chars with
  | nil => rw [List.nil_append, splitChars, if_pos rfl]
  | cons c chars ih =>
      obtain ⟨hc, hchars⟩ := List.ne_and_not_mem_of_not_mem_cons h
      rw [List.cons_append, splitChars, if_neg (Ne.symm hc), ih hchars]

theorem splitChars_intercalate {separator : Char} {part : List Char} {parts : List (List Char)}
    (h : ∀ p ∈ part :: parts, separator ∉ p) :
    splitChars separator ([separator].intercalate (part :: parts)) = part :: parts := by
  induction parts generalizing part with
  | nil =>
      rw [List.intercalate_singleton]
      exact splitChars_of_not_mem (h part List.mem_cons_self)
  | cons next parts ih =>
      have hpart : separator ∉ part := h part List.mem_cons_self
      have hrest : ∀ p ∈ next :: parts, separator ∉ p := fun p hp =>
        h p (List.mem_cons_of_mem _ hp)
      rw [List.intercalate_cons_cons, List.append_assoc, List.singleton_append,
        splitChars_append_cons hpart, ih hrest]

theorem split_intercalate {separator : Char} {text : String} (htext : text.toList = [separator])
    {part : String} {parts : List String} (h : ∀ p ∈ part :: parts, separator ∉ p.toList) :
    split separator (text.intercalate (part :: parts)) = part :: parts := by
  have hlists : ∀ p ∈ part.toList :: parts.map String.toList, separator ∉ p := by
    intro p hp
    rw [← List.map_cons] at hp
    obtain ⟨s, hs, rfl⟩ := List.mem_map.1 hp
    exact h s hs
  rw [split, String.toList_intercalate, htext, List.map_cons, splitChars_intercalate hlists]
  simp

/-- Texts that are joined from parts without separators are the same only if the parts are. -/
theorem intercalate_injective {separator : Char} {text : String} (htext : text.toList = [separator])
    {parts others : List String} (hsome : parts ≠ []) (hsome' : others ≠ [])
    (hparts : ∀ p ∈ parts, separator ∉ p.toList) (hothers : ∀ p ∈ others, separator ∉ p.toList)
    (h : text.intercalate parts = text.intercalate others) : parts = others := by
  obtain ⟨part, parts, rfl⟩ := List.exists_cons_of_ne_nil hsome
  obtain ⟨other, others, rfl⟩ := List.exists_cons_of_ne_nil hsome'
  rw [← split_intercalate htext hparts, h, split_intercalate htext hothers]

theorem cutChars_eq_some_iff {separator : Char} {chars before after : List Char} :
    cutChars separator chars = some (before, after) ↔
      chars = before ++ separator :: after ∧ separator ∉ before := by
  induction chars generalizing before with
  | nil => simp [cutChars]
  | cons c rest ih =>
      unfold cutChars
      by_cases hc : c = separator
      · rw [if_pos hc]
        cases before with
        | nil => simp [hc, eq_comm]
        | cons first before =>
            constructor
            · intro h
              simp at h
            · rintro ⟨hchars, hfresh⟩
              obtain ⟨rfl, _⟩ := List.cons.inj hchars
              exact absurd (hc ▸ List.mem_cons_self) hfresh
      · rw [if_neg hc]
        cases before with
        | nil => simp [hc]
        | cons first before =>
            rw [Option.map_eq_some_iff]
            constructor
            · rintro ⟨⟨found, others⟩, hcut, heq⟩
              obtain ⟨hfirst, rfl⟩ := Prod.mk.inj heq
              obtain ⟨rfl, rfl⟩ := List.cons.inj hfirst
              obtain ⟨hrest, hfresh⟩ := ih.1 hcut
              have hboth := List.not_mem_cons_of_ne_of_not_mem (Ne.symm hc) hfresh
              exact ⟨by rw [hrest]; rfl, hboth⟩
            · rintro ⟨hchars, hfresh⟩
              obtain ⟨rfl, hrest⟩ := List.cons.inj hchars
              have hrestFresh := (List.ne_and_not_mem_of_not_mem_cons hfresh).2
              exact ⟨(before, after), ih.2 ⟨hrest, hrestFresh⟩, rfl⟩

/-- A text is cut at the first separator. -/
theorem cut?_eq_some_iff {separator : Char} {s before after : String} :
    cut? separator s = some (before, after) ↔
      s.toList = before.toList ++ separator :: after.toList ∧ separator ∉ before.toList := by
  rw [← cutChars_eq_some_iff, cut?, Option.map_eq_some_iff]
  constructor
  · rintro ⟨⟨first, second⟩, hcut, heq⟩
    obtain ⟨rfl, rfl⟩ := Prod.mk.inj heq
    rw [String.toList_ofList, String.toList_ofList]
    exact hcut
  · intro hcut
    exact ⟨_, hcut, by simp⟩

end DocGraph.Text
