import DocGraph.Proofs.Aql.Spelled
/-!
# Reading quoted names

A quoted name is read up to the first backtick that is not escaped, where a backslash takes the
next character as it is.  So a name that is quoted is read back whatever stands behind it, and the
attributes behind a variable are read back one after the other.
-/

namespace DocGraph.Aql

/-! ## Readers -/

/-- What stands before the first backtick that is not escaped, and what stands behind it. -/
def closing? : List Char → Option (List Char × List Char)
  | [] => none
  | '\x60' :: rest => some ([], rest)
  | '\\' :: c :: rest => (closing? rest).map fun (name, rest) => (c :: name, rest)
  | c :: rest => (closing? rest).map fun (name, rest) => (c :: name, rest)

def readQuoted? (text : String) : Option (String × String) :=
  match text.toList with
  | '\x60' :: chars =>
    (closing? chars).map fun (name, rest) => (String.ofList name, String.ofList rest)
  | _ => none

theorem length_of_closing? {chars name rest : List Char} (h : closing? chars = some (name, rest)) :
    rest.length < chars.length := by
  fun_induction closing? chars generalizing name with
  | case1 => cases h
  | case2 => simp_all
  | case3 c chars ih =>
      obtain ⟨⟨more, _⟩, hmore, heq⟩ := Option.map_eq_some_iff.1 h
      obtain ⟨_, rfl⟩ := Prod.mk.inj heq
      have hlength := ih hmore
      simp only [List.length_cons]
      omega
  | case4 c chars _ _ ih =>
      obtain ⟨⟨more, _⟩, hmore, heq⟩ := Option.map_eq_some_iff.1 h
      obtain ⟨_, rfl⟩ := Prod.mk.inj heq
      have hlength := ih hmore
      simp only [List.length_cons]
      omega

/-- The quoted names that stand behind a dot each, as many as there are, and what is left. -/
def readAttributes (chars : List Char) : List String × List Char :=
  match chars with
  | '.' :: '\x60' :: chars =>
    match h : closing? chars with
    | some (name, rest) =>
      have := length_of_closing? h
      let (names, rest) := readAttributes rest
      (String.ofList name :: names, rest)
    | none => ([], '.' :: '\x60' :: chars)
  | chars => ([], chars)
termination_by chars.length

def readAccess (text : String) : Access × String :=
  let (path, rest) := readAttributes (text.toList.dropWhile isWordChar)
  (⟨String.ofList (text.toList.takeWhile isWordChar), path⟩, String.ofList rest)

def quotedNames? (chars : List Char) : Option (List String) :=
  match chars with
  | [] => some []
  | '\x60' :: chars =>
    match h : closing? chars with
    | some (name, rest) =>
      have := length_of_closing? h
      (quotedNames? rest).map (String.ofList name :: ·)
    | none => none
  | _ :: chars => quotedNames? chars
termination_by chars.length

/-! ## Names are read back -/

theorem closing?_quoteChar (c : Char) (rest : List Char) :
    closing? (quoteChar c ++ rest) = (closing? rest).map fun (name, rest) => (c :: name, rest) := by
  unfold quoteChar
  by_cases hescape : c = '\x60' ∨ c = '\\'
  · rw [if_pos hescape]
    rfl
  · rw [if_neg hescape]
    obtain ⟨htick, hslash⟩ := not_or.1 hescape
    exact closing?.eq_4 c rest htick fun _ _ h => absurd h hslash

theorem closing?_quoted (name rest : List Char) :
    closing? (name.flatMap quoteChar ++ '\x60' :: rest) = some (name, rest) := by
  induction name with
  | nil => rfl
  | cons c name ih => rw [List.flatMap_cons, List.append_assoc, closing?_quoteChar, ih]; rfl

theorem toList_quote_append (name : String) (rest : List Char) :
    (quote name).toList ++ rest = '\x60' :: (name.toList.flatMap quoteChar ++ '\x60' :: rest) := by
  simp [quote]

theorem readQuoted?_quote_append (name rest : String) :
    readQuoted? (quote name ++ rest) = some (name, rest) := by
  unfold readQuoted?
  rw [String.toList_append, toList_quote_append]
  simp [closing?_quoted]

theorem readAttributes_quote (name : String) (rest : List Char) :
    readAttributes ('.' :: ((quote name).toList ++ rest)) =
      (name :: (readAttributes rest).1, (readAttributes rest).2) := by
  have hclosing := closing?_quoted name.toList rest
  rw [toList_quote_append, readAttributes]
  split
  · rename_i found left hfound
    obtain ⟨rfl, rfl⟩ := Prod.mk.inj (Option.some.inj (hfound.symm.trans hclosing))
    rw [String.ofList_toList]
  · rename_i hnone
    rw [hclosing] at hnone
    cases hnone

theorem quotedNames?_of_closing? {chars name rest : List Char}
    (h : closing? chars = some (name, rest)) :
    quotedNames? ('\x60' :: chars) = (quotedNames? rest).map (String.ofList name :: ·) := by
  rw [quotedNames?]
  split
  · rename_i found left hfound
    obtain ⟨rfl, rfl⟩ := Prod.mk.inj (Option.some.inj (hfound.symm.trans h))
    rfl
  · rename_i hnone
    rw [h] at hnone
    cases hnone

theorem quotedNames?_quote (name : String) (rest : List Char) :
    quotedNames? ((quote name).toList ++ rest) = (quotedNames? rest).map (name :: ·) := by
  rw [toList_quote_append, quotedNames?_of_closing? (closing?_quoted name.toList rest),
    String.ofList_toList]

theorem quotedNames?_cons_of_ne {c : Char} (h : c ≠ '\x60') (rest : List Char) :
    quotedNames? (c :: rest) = quotedNames? rest := by
  rw [quotedNames?]
  exact fun heq => h heq

/-! ## Texts one after the other -/

theorem closing?_append {chars name left : List Char} (h : closing? chars = some (name, left))
    (rest : List Char) : closing? (chars ++ rest) = some (name, left ++ rest) := by
  fun_induction closing? chars generalizing name with
  | case1 => cases h
  | case2 =>
      obtain ⟨rfl, rfl⟩ := Prod.mk.inj (Option.some.inj h)
      rfl
  | case3 c chars ih =>
      obtain ⟨⟨more, _⟩, hmore, heq⟩ := Option.map_eq_some_iff.1 h
      obtain ⟨rfl, rfl⟩ := Prod.mk.inj heq
      rw [List.cons_append, List.cons_append, closing?, ih hmore]
      rfl
  | case4 c chars htick hslash ih =>
      obtain ⟨⟨more, _⟩, hmore, heq⟩ := Option.map_eq_some_iff.1 h
      obtain ⟨rfl, rfl⟩ := Prod.mk.inj heq
      -- A backslash that nothing stands behind leaves the name open.
      have hescape : ∀ d others, c = '\\' → chars ++ rest = d :: others → False := by
        rintro d others rfl -
        cases chars with
        | nil => cases hmore
        | cons d chars => exact hslash d chars rfl rfl
      rw [List.cons_append, closing?.eq_4 _ _ htick hescape, ih hmore]
      rfl

/-- The names in a text are those of its parts, if the first part leaves no name open. -/
theorem quotedNames?_append {chars : List Char} {names : List String}
    (h : quotedNames? chars = some names) (rest : List Char) :
    quotedNames? (chars ++ rest) = (quotedNames? rest).map (names ++ ·) := by
  fun_induction quotedNames? chars generalizing names with
  | case1 =>
      obtain rfl := Option.some.inj h
      simp
  | case2 chars name left hclosing _ ih =>
      obtain ⟨others, hothers, rfl⟩ := Option.map_eq_some_iff.1 h
      rw [List.cons_append, quotedNames?_of_closing? (closing?_append hclosing rest), ih hothers,
        Option.map_map]
      rfl
  | case3 => cases h
  | case4 c chars hc ih => rw [List.cons_append, quotedNames?_cons_of_ne hc, ih h]

theorem quotedNames?_of_not_mem {chars : List Char} (h : '\x60' ∉ chars) :
    quotedNames? chars = some [] := by
  induction chars with
  | nil => rw [quotedNames?]
  | cons c chars ih =>
      obtain ⟨hc, hchars⟩ := not_or.1 (mt List.mem_cons.2 h)
      rw [quotedNames?_cons_of_ne (Ne.symm hc), ih hchars]

/-! ## Attributes are read back -/

def isGap (c : Char) : Bool := !isWordChar c && c != '.'

def StartsWithGap (text : String) : Prop :=
  ∃ c rest, text.toList = c :: rest ∧ isGap c = true

def IsBehind (text : String) : Prop := text = "" ∨ StartsWithGap text

theorem StartsWithGap.append {text : String} (h : StartsWithGap text) (rest : String) :
    StartsWithGap (text ++ rest) := by
  obtain ⟨c, chars, hchars, hc⟩ := h
  exact ⟨c, chars ++ rest.toList, by rw [String.toList_append, hchars, List.cons_append], hc⟩

theorem IsBehind.head_ne {text : String} (h : IsBehind text) : text.toList.head? ≠ some '.' := by
  rcases h with rfl | ⟨c, rest, hchars, hc⟩
  · simp
  · rw [hchars]
    rintro heq
    obtain rfl := Option.some.inj heq
    exact absurd hc (by decide)

theorem readAttributes_of_head_ne {rest : List Char} (h : rest.head? ≠ some '.') :
    readAttributes rest = ([], rest) := by
  rw [readAttributes]
  rintro chars rfl
  exact h rfl

def pathText (path : List String) : String := String.join (path.map fun name => "." ++ quote name)

theorem pathText_cons (name : String) (path : List String) :
    pathText (name :: path) = "." ++ quote name ++ pathText path := by
  simp [pathText, String.join_cons]

theorem readAttributes_pathText (path : List String) {rest : List Char}
    (h : rest.head? ≠ some '.') :
    readAttributes ((pathText path).toList ++ rest) = (path, rest) := by
  induction path with
  | nil => exact readAttributes_of_head_ne h
  | cons name path ih =>
      have hchars : (pathText (name :: path)).toList ++ rest =
          '.' :: ((quote name).toList ++ ((pathText path).toList ++ rest)) := by
        simp [pathText_cons]
      rw [hchars, readAttributes_quote, ih]

theorem isWordChar_of_isVariable {name : String} (h : isVariable name = true) :
    ∀ c ∈ name.toList, isWordChar c = true := by
  unfold isVariable at h
  cases hchars : name.toList with
  | nil => simp
  | cons c rest =>
      simp only [hchars, Bool.and_eq_true, List.all_eq_true] at h
      obtain ⟨⟨hfirst, hrest⟩, _⟩ := h
      refine List.forall_mem_cons.2 ⟨?_, hrest⟩
      unfold isWordChar Char.isAlphanum
      grind

/-- Attributes begin with a dot, so a variable ends where they begin. -/
theorem isWordChar_of_mem_head? (path : List String) {rest : String} (h : IsBehind rest) :
    ∀ c ∈ ((pathText path).toList ++ rest.toList).head?, isWordChar c = false := by
  cases path with
  | nil =>
      rcases h with rfl | ⟨d, chars, hchars, hd⟩
      · simp [pathText]
      · simp only [isGap, Bool.and_eq_true, Bool.not_eq_true'] at hd
        simp [pathText, hchars, hd.1]
  | cons name path =>
      have hdot : isWordChar '.' = false := by decide
      simp [pathText_cons, hdot]

theorem takeWhile_dropWhile_of_head {chars : List Char}
    (h : ∀ c ∈ chars.head?, isWordChar c = false) :
    chars.takeWhile isWordChar = [] ∧ chars.dropWhile isWordChar = chars := by
  cases chars with
  | nil => exact ⟨rfl, rfl⟩
  | cons c chars =>
      have hc := h c rfl
      simp [hc]

theorem readAccess_append {access : Access} (hbase : isVariable access.base = true) {rest : String}
    (h : IsBehind rest) : readAccess (access.text ++ rest) = (access, rest) := by
  obtain ⟨base, path⟩ := access
  have hword := isWordChar_of_isVariable hbase
  obtain ⟨htake, hdrop⟩ := takeWhile_dropWhile_of_head (isWordChar_of_mem_head? path h)
  change readAccess (base ++ pathText path ++ rest) = _
  unfold readAccess
  rw [String.toList_append, String.toList_append, List.append_assoc,
    List.takeWhile_append_of_pos hword, List.dropWhile_append_of_pos hword, htake, hdrop,
    readAttributes_pathText path h.head_ne]
  simp

end DocGraph.Aql
