import DocGraph.Proofs.Aql.Spelled
/-!
# A sort without keys

No program of the grammar has another word right behind the word of a sort: keys begin with a
variable, and the word stands nowhere else.
-/

namespace DocGraph.Aql

def Lexeme.isKeyword : Lexeme → Bool
  | .token (.keyword _) => true
  | _ => false

/-- Whether the word of a sort has another word right behind it. -/
def hasBareSort : List Lexeme → Bool
  | first :: second :: rest =>
    (first == keyword "SORT" && second.isKeyword) || hasBareSort (second :: rest)
  | _ => false

theorem hasBareSort_cons_of_ne {first : Lexeme} (h : first ≠ keyword "SORT")
    (rest : List Lexeme) : hasBareSort (first :: rest) = hasBareSort rest := by
  cases rest with
  | nil => rfl
  | cons second rest => simp [hasBareSort, h]

theorem hasBareSort_append {lexemes : List Lexeme} (h : keyword "SORT" ∉ lexemes)
    (rest : List Lexeme) : hasBareSort (lexemes ++ rest) = hasBareSort rest := by
  induction lexemes with
  | nil => rfl
  | cons first lexemes ih =>
      rw [List.mem_cons, not_or] at h
      obtain ⟨hfirst, hlexemes⟩ := h
      rw [List.cons_append, hasBareSort_cons_of_ne (Ne.symm hfirst), ih hlexemes]

theorem hasBareSort_append_right (lexemes : List Lexeme) {rest : List Lexeme}
    (h : hasBareSort rest = true) : hasBareSort (lexemes ++ rest) = true := by
  induction lexemes with
  | nil => exact h
  | cons first lexemes ih =>
      rw [List.cons_append]
      cases hbehind : lexemes ++ rest with
      | nil => simp [hbehind, hasBareSort] at ih
      | cons second others =>
          rw [hbehind] at ih
          simp [hasBareSort, ih]

/-! ## Where the word of a sort stands -/

theorem IsAttribute.not_mem_sort {tokens : List Token} (h : IsAttribute tokens) :
    .keyword "SORT" ∉ tokens := by
  obtain ⟨var, names, _, _⟩ := h
  simp

theorem IsExpression.not_mem_sort {tokens : List Token} (h : IsExpression tokens) :
    .keyword "SORT" ∉ tokens := by
  induction h with
  | null => decide
  | parameter key _ => simp
  | access h => exact h.not_mem_sort
  | call function arguments _ _ _ ih =>
      intro hmem
      simp only [List.mem_append, List.mem_cons, List.not_mem_nil, reduceCtorEq, or_false,
        false_or] at hmem
      rcases mem_intercalate hmem with hmem | ⟨argument, hargument, hmem⟩
      · simp at hmem
      · exact ih argument hargument hmem

theorem IsCondition.not_mem_sort {tokens : List Token} (h : IsCondition tokens) :
    .keyword "SORT" ∉ tokens := by
  induction h with
  | expression h => exact h.not_mem_sort
  | comparison hleft hbetween hright =>
      have hword : ∀ between ∈ comparisons, .keyword "SORT" ∉ between := by decide
      simp [hleft.not_mem_sort, hright.not_mem_sort, hword _ hbetween]
  | notExpression h => simp [h.not_mem_sort]
  | negation _ ih => simp [ih]
  | group connective parts _ _ ih =>
      intro hmem
      simp only [List.cons_append, List.mem_append, List.mem_cons, List.not_mem_nil,
        reduceCtorEq, or_false, false_or] at hmem
      rcases mem_intercalate hmem with hmem | ⟨part, hpart, hmem⟩
      · cases connective <;> simp [Connective.token] at hmem
      · exact ih part hpart hmem

theorem not_mem_sort_map {tokens : List Token} (h : .keyword "SORT" ∉ tokens) :
    keyword "SORT" ∉ tokens.map Lexeme.token := by
  simpa [keyword] using h

theorem IsLoop.not_mem_sort {lexemes : List Lexeme} (h : IsLoop lexemes) :
    keyword "SORT" ∉ lexemes := by
  obtain ⟨var, ⟨key, _⟩⟩ := h
  simp [keyword, variableNamed]

theorem IsEdges.not_mem_sort {lexemes : List Lexeme} (h : IsEdges lexemes) :
    keyword "SORT" ∉ lexemes := by
  cases h with
  | graph h =>
      obtain ⟨key, _⟩ := h
      simp [keyword]
  | collections parts _ hparts =>
      intro hmem
      rcases mem_intercalate hmem with hmem | ⟨part, hpart, hmem⟩
      · simp [keyword] at hmem
      · obtain ⟨key, _⟩ := hparts part hpart
        simp [keyword] at hmem

theorem IsResult.not_mem_sort {lexemes : List Lexeme} (h : IsResult lexemes) :
    keyword "SORT" ∉ lexemes := by
  cases h with
  | document var => simp [keyword, variableNamed]
  | row parts _ hparts =>
      intro hmem
      simp only [List.cons_append, List.mem_append, List.mem_cons, List.not_mem_nil, keyword,
        reduceCtorEq, or_false, false_or] at hmem
      rcases mem_intercalate hmem with hmem | ⟨part, hpart, hmem⟩
      · simp at hmem
      · cases hparts part hpart with
        | field _ h =>
            simp only [List.mem_append, List.mem_cons, List.not_mem_nil, Lexeme.token.injEq,
              reduceCtorEq, or_false, false_or] at hmem
            exact not_mem_sort_map h.not_mem_sort hmem
        | document var _ => simp [variableNamed] at hmem

/-! ## Programs -/

theorem IsKey.not_mem_sort {lexemes : List Lexeme} (h : IsKey lexemes) :
    keyword "SORT" ∉ lexemes := by
  obtain ⟨direction, hattribute, hdirection⟩ := h
  intro hmem
  rcases List.mem_append.1 hmem with hmem | hmem
  · exact not_mem_sort_map hattribute.not_mem_sort hmem
  · have hword : ∀ word ∈ ["ASC", "DESC"], keyword "SORT" ∉ [keyword word] := by decide
    exact hword direction hdirection hmem

theorem keys_begin {keys : List (List Lexeme)} (hsome : keys ≠ [])
    (hkeys : ∀ key ∈ keys, IsKey key) :
    ∃ var rest, [.token .comma].intercalate keys = variableNamed var :: rest := by
  obtain ⟨first, others, rfl⟩ := List.exists_cons_of_ne_nil hsome
  obtain ⟨direction, ⟨var, names, _, _⟩, _⟩ := hkeys first List.mem_cons_self
  cases others with
  | nil =>
      rw [List.intercalate_singleton]
      exact ⟨var, _, rfl⟩
  | cons second others =>
      rw [List.intercalate_cons_cons]
      exact ⟨var, _, rfl⟩

theorem IsClause.hasBareSort {kind : String} {clause : List Lexeme} (h : IsClause kind clause)
    (rest : List Lexeme) : hasBareSort (clause ++ rest) = hasBareSort rest := by
  cases h with
  | filter h =>
      apply hasBareSort_append
      simpa [keyword] using h.not_mem_sort
  | sort keys hsome hkeys =>
      obtain ⟨var, behind, hbegin⟩ := keys_begin hsome hkeys
      have hfree : keyword "SORT" ∉ [Lexeme.token .comma].intercalate keys := by
        intro hmem
        rcases mem_intercalate hmem with hmem | ⟨key, hkey, hmem⟩
        · simp [keyword] at hmem
        · exact (hkeys key hkey).not_mem_sort hmem
      rw [hbegin] at hfree ⊢
      rw [List.cons_append, List.cons_append, Aql.hasBareSort, ← List.cons_append,
        hasBareSort_append hfree]
      simp [Lexeme.isKeyword, variableNamed]
  | limit h =>
      obtain ⟨key, _⟩ := h
      exact hasBareSort_append (by simp [keyword]) rest
  | slice h h' =>
      obtain ⟨key, _⟩ := h
      obtain ⟨key', _⟩ := h'
      exact hasBareSort_append (by simp [keyword]) rest
  | join h => exact hasBareSort_append h.not_mem_sort rest
  | traverse minDepth maxDepth direction start hvariables _ hdirection hedges =>
      have hword : ∀ word ∈ ["OUTBOUND", "INBOUND", "ANY"], keyword "SORT" ≠ keyword word := by
        decide
      apply hasBareSort_append
      rw [List.mem_append, List.mem_append, not_or, not_or]
      refine ⟨⟨?_, ?_⟩, hedges.not_mem_sort⟩
      · cases hvariables <;> simp [keyword, variableNamed]
      · have hdirection := hword direction hdirection
        simp only [keyword] at hdirection
        simp [keyword, variableNamed, hdirection]

theorem IsClause.begins {kind : String} {clause : List Lexeme} (h : IsClause kind clause) :
    ∃ word rest, clause = keyword word :: rest := by
  cases h with
  | filter => exact ⟨_, _, rfl⟩
  | sort => exact ⟨_, _, rfl⟩
  | limit => exact ⟨_, _, rfl⟩
  | slice => exact ⟨_, _, rfl⟩
  | join h =>
      obtain ⟨var, _⟩ := h
      exact ⟨_, _, rfl⟩
  | traverse => exact ⟨_, _, rfl⟩

theorem IsBody.hasBareSort {kinds : List String} {lexemes : List Lexeme}
    (h : IsBody kinds lexemes) : hasBareSort lexemes = false := by
  induction h with
  | result h =>
      rw [hasBareSort_cons_of_ne (by decide)]
      simpa [Aql.hasBareSort] using hasBareSort_append h.not_mem_sort []
  | clause h _ ih => rw [h.hasBareSort, ih]

theorem IsBody.begins {kinds : List String} {lexemes : List Lexeme} (h : IsBody kinds lexemes) :
    ∃ word rest, lexemes = keyword word :: rest := by
  cases h with
  | result => exact ⟨_, _, rfl⟩
  | clause h _ =>
      obtain ⟨word, rest, rfl⟩ := h.begins
      exact ⟨word, _, rfl⟩

theorem IsProgram.hasBareSort {kinds : List String} {lexemes : List Lexeme}
    (h : IsProgram kinds lexemes) : hasBareSort lexemes = false := by
  obtain ⟨hloop, hbody⟩ := h
  rw [hasBareSort_append hloop.not_mem_sort, hbody.hasBareSort]

end DocGraph.Aql
