import DocGraph.Aql.Render
import DocGraph.Proofs.Aql.Token
/-!
# The words of what a program writes

Every condition is written word by word as its tokens say, as long as the variables in it are
variables: names of attributes are quoted, parameters are words behind a sign, and whatever
follows a word begins with a character that ends it.
-/

namespace DocGraph.Aql

def Access.tokens (access : Access) : List Token :=
  .name access.base :: access.path.flatMap fun name => [.dot, .quoted name]

def Term.tokens : Term → List Token
  | parameter p => [.parameter p.key]
  | access a => a.tokens

def compareTokens (isList : Bool) (operator : Operator) (left right : List Token) : List Token :=
  match operator, isList with
  | .eq, _ => left ++ [.relation .equal] ++ right
  | .ne, _ => left ++ [.relation .unequal] ++ right
  | .gt, _ => left ++ [.relation .greater] ++ right
  | .gte, _ => left ++ [.relation .atLeast] ++ right
  | .lt, _ => left ++ [.relation .less] ++ right
  | .lte, _ => left ++ [.relation .atMost] ++ right
  | .contains, true => right ++ [.keyword "IN"] ++ left
  | .contains, false => [.name "CONTAINS", .opening] ++ left ++ [.comma] ++ right ++ [.closing]
  | .notContains, true => right ++ [.keyword "NOT", .keyword "IN"] ++ left
  | .notContains, false =>
    [.keyword "NOT", .name "CONTAINS", .opening] ++ left ++ [.comma] ++ right ++ [.closing]
  | .startsWith, _ =>
    [.name "STARTS_WITH", .opening] ++ left ++ [.comma] ++ right ++ [.closing]
  | .endsWith, _ =>
    [.name "RIGHT", .opening] ++ left ++ [.comma, .name "LENGTH", .opening] ++ right
      ++ [.closing, .closing, .relation .equal] ++ right
  | .anyOf, true => left ++ [.keyword "ANY", .keyword "IN"] ++ right
  | .anyOf, false => left ++ [.keyword "IN"] ++ right
  | .noneOf, true => left ++ [.keyword "NONE", .keyword "IN"] ++ right
  | .noneOf, false => left ++ [.keyword "NOT", .keyword "IN"] ++ right

def Connective.token : Connective → Token
  | and => .keyword "AND"
  | or => .keyword "OR"

mutual
def Formula.tokens : Formula → List Token
  | .truth p => [.parameter p.key]
  | .group connective parts =>
    .opening :: [connective.token].intercalate (formulaTokens parts) ++ [.closing]
  | .negation part => [.keyword "NOT", .opening] ++ part.tokens ++ [.closing]
  | .presence access isPresent =>
    access.tokens ++ [.relation (if isPresent then .unequal else .equal), .keyword "NULL"]
  | .compare left isList operator right =>
    compareTokens isList operator left.tokens right.tokens
termination_by structural formula => formula

def formulaTokens : List Formula → List (List Token)
  | [] => []
  | part :: parts => part.tokens :: formulaTokens parts
termination_by structural parts => parts
end

/-! ## Words -/

theorem scan_gathered {gather : List Char → Scan} {chars : List Char}
    (h : ∀ c ∈ chars, ∀ before, (gather before).next c = some ([], gather (before ++ [c])))
    (before : List Char) : scan (gather before) chars = some ([], gather (before ++ chars)) := by
  induction chars generalizing before with
  | nil => simp [scan]
  | cons c chars ih =>
      have hc := h c List.mem_cons_self before
      have hchars := ih (fun d hd => h d (List.mem_cons_of_mem _ hd)) (before ++ [c])
      simp [scan, hc, hchars]

theorem next_word {c : Char} (h : isWordChar c = true) (before : List Char) :
    (Scan.word before).next c = some ([], .word (before ++ [c])) := by
  simp [Scan.next, h]

theorem next_parameter {c : Char} (h : isWordChar c = true) (before : List Char) :
    (Scan.parameter before).next c = some ([], .parameter (before ++ [c])) := by
  simp [Scan.next, h]

theorem scan_quoted (chars before : List Char) :
    scan (.quoted before) (chars.flatMap quoteChar) = some ([], .quoted (before ++ chars)) := by
  induction chars generalizing before with
  | nil => simp [scan]
  | cons c chars ih =>
      have hchars := ih (before ++ [c])
      rw [List.flatMap_cons, scan_append]
      by_cases hescape : c = '\x60' ∨ c = '\\'
      · have hfirst : scan (.quoted before) (quoteChar c) = some ([], .quoted (before ++ [c])) := by
          rw [quoteChar, if_pos hescape]
          rfl
        simp [hfirst, hchars]
      · have hfirst : scan (.quoted before) (quoteChar c) = some ([], .quoted (before ++ [c])) := by
          rw [quoteChar, if_neg hescape]
          obtain ⟨htick, hslash⟩ := not_or.1 hescape
          simp [scan, Scan.next, htick, hslash]
        simp [hfirst, hchars]

theorem scan_quote (name : String) :
    scan .idle (quote name).toList = some ([.quoted name], .idle) := by
  have hopen : ∀ rest, scan .idle ('\x60' :: rest) = scan (.quoted []) rest := by
    intro rest
    cases h : scan (.quoted []) rest <;> simp [scan, Scan.next, Scan.start, h]
  rw [quote, String.toList_ofList, List.cons_append, hopen, scan_append, scan_quoted]
  simp [scan, Scan.next]

theorem tokens?_variable {name : String} (h : isVariable name = true) :
    tokens? name = some [.name name] := by
  unfold isVariable at h
  cases hchars : name.toList with
  | nil => simp [hchars] at h
  | cons c rest =>
      simp only [hchars, Bool.and_eq_true, Bool.not_eq_true', List.all_eq_true] at h
      obtain ⟨⟨hfirst, hrest⟩, hkeyword⟩ := h
      have hspace : c ≠ ' ' := by
        rintro rfl
        exact absurd hfirst (by decide)
      have hstart : Scan.start c = some ([], .word [c]) := by
        rw [Scan.start, if_neg hspace, if_pos hfirst]
      have hscan : scan .idle name.toList = some ([], .word name.toList) := by
        rw [hchars, scan, show Scan.next .idle c = Scan.start c from rfl, hstart]
        simp [scan_gathered fun d hd before => next_word (hrest d hd) before]
      have hword : wordToken name.toList = .name name := by
        rw [wordToken, hchars, hkeyword, ← hchars, String.ofList_toList]
        rfl
      rw [tokens?_eq_some_iff]
      exact ⟨[], .word name.toList, [.name name], hscan, by rw [Scan.finish, hword], rfl⟩

theorem isWordChar_of_mem_stem {kind : ParameterKind} {c : Char} (h : c ∈ kind.stem.toList) :
    isWordChar c = true := by
  have hall : kind.stem.toList.all isWordChar = true := by cases kind <;> decide
  exact List.all_eq_true.1 hall c h

theorem isWordChar_of_mem_digits {n : Nat} {c : Char} (h : c ∈ (toString n).toList) :
    isWordChar c = true := by
  simp [isWordChar, Char.isAlphanum, isDigit_of_mem_toString h]

def Parameter.word (p : Parameter) : List Char :=
  p.kind.stem.toList ++ '_' :: (toString p.index).toList

theorem isWordChar_of_mem_word {p : Parameter} {c : Char} (h : c ∈ p.word) :
    isWordChar c = true := by
  rcases List.mem_append.1 h with h | h
  · exact isWordChar_of_mem_stem h
  · rcases List.mem_cons.1 h with rfl | h
    · decide
    · exact isWordChar_of_mem_digits h

theorem toList_key (p : Parameter) :
    p.key.toList = (if p.kind.namesCollection then ['@'] else []) ++ p.word := by
  unfold Parameter.key Parameter.word
  cases p.kind.namesCollection <;> simp

theorem tokens?_parameter (p : Parameter) : tokens? p.text = some [.parameter p.key] := by
  have hword : ∀ before,
      scan (.parameter before) p.word = some ([], .parameter (before ++ p.word)) :=
    scan_gathered fun c hc before => next_parameter (isWordChar_of_mem_word hc) before
  have hkey : scan (.parameter []) p.key.toList = some ([], .parameter p.key.toList) := by
    rw [toList_key]
    cases p.kind.namesCollection with
    | true =>
        rw [if_pos rfl, List.singleton_append, scan]
        simp [Scan.next, hword]
    | false => simp [hword]
  have hscan : scan .idle p.text.toList = some ([], .parameter p.key.toList) := by
    rw [Parameter.text, String.toList_append, scan_append,
      show scan .idle "@".toList = some ([], .parameter []) from rfl, Option.bind_some]
    dsimp only
    rw [hkey]
    rfl
  rw [tokens?_eq_some_iff]
  exact ⟨[], .parameter p.key.toList, [.parameter p.key], hscan,
    by rw [Scan.finish, String.ofList_toList], rfl⟩

/-! ## Fields and comparisons -/

theorem scan_path (path : List String) :
    scan .idle (String.join (path.map fun name => "." ++ quote name)).toList
      = some (path.flatMap fun name => [.dot, .quoted name], .idle) := by
  induction path with
  | nil => rfl
  | cons name path ih =>
      rw [List.map_cons, String.join_cons, String.append_assoc, String.toList_append, scan_append,
        show scan .idle ".".toList = some ([.dot], .idle) from rfl, Option.bind_some]
      dsimp only
      rw [String.toList_append, scan_append, scan_quote, Option.bind_some]
      dsimp only
      rw [ih]
      rfl

theorem tokens?_access {access : Access} (h : isVariable access.base = true) :
    tokens? access.text = some access.tokens := by
  unfold Access.text Access.tokens
  cases hpath : access.path with
  | nil =>
      rw [List.map_nil, String.join_nil, String.append_empty]
      exact tokens?_variable h
  | cons name path =>
      have htail := scan_path (name :: path)
      apply tokens?_append (tokens?_variable h)
      · exact tokens?_of_scan htail
      · refine ⟨'.', (quote name ++ String.join (path.map fun name => "." ++ quote name)).toList,
          ?_, rfl⟩
        simp

def Term.IsNamed : Term → Prop
  | parameter _ => True
  | access a => isVariable a.base = true

theorem tokens?_term {term : Term} (h : term.IsNamed) : tokens? term.text = some term.tokens := by
  cases term with
  | parameter p => exact tokens?_parameter p
  | access a => exact tokens?_access h

theorem tokens?_compare {isList : Bool} {operator : Operator} {left right : String}
    {leftTokens rightTokens : List Token} (hleft : tokens? left = some leftTokens)
    (hright : tokens? right = some rightTokens) :
    tokens? (compareText isList operator left right)
      = some (compareTokens isList operator leftTokens rightTokens) := by
  have hinfix : ∀ {middle tokens}, scan .idle middle.toList = some (tokens, .idle) →
      StartsWithStop middle →
      tokens? (left ++ middle ++ right) = some (leftTokens ++ tokens ++ rightTokens) :=
    fun hmiddle hstop => tokens?_infix hleft hmiddle hstop hright
  have hflipped : ∀ {middle tokens}, scan .idle middle.toList = some (tokens, .idle) →
      StartsWithStop middle →
      tokens? (right ++ middle ++ left) = some (rightTokens ++ tokens ++ leftTokens) :=
    fun hmiddle hstop => tokens?_infix hright hmiddle hstop hleft
  have hcomma : StartsWithStop ", " := ⟨',', [' '], rfl, rfl⟩
  have hcall : ∀ {head tokens}, scan .idle head.toList = some (tokens, .idle) →
      tokens? (head ++ left ++ ", " ++ right ++ ")")
        = some (tokens ++ leftTokens ++ [.comma] ++ rightTokens ++ [.closing]) :=
    fun hhead => tokens?_of_scan
      (scan_between (scan_between hhead hleft rfl hcomma) hright rfl ⟨')', [], rfl, rfl⟩)
  cases operator with
  | eq => exact hinfix rfl ⟨' ', _, rfl, rfl⟩
  | ne => exact hinfix rfl ⟨' ', _, rfl, rfl⟩
  | gt => exact hinfix rfl ⟨' ', _, rfl, rfl⟩
  | gte => exact hinfix rfl ⟨' ', _, rfl, rfl⟩
  | lt => exact hinfix rfl ⟨' ', _, rfl, rfl⟩
  | lte => exact hinfix rfl ⟨' ', _, rfl, rfl⟩
  | contains =>
      cases isList with
      | true => exact hflipped rfl ⟨' ', _, rfl, rfl⟩
      | false => exact hcall rfl
  | notContains =>
      cases isList with
      | true => exact hflipped rfl ⟨' ', _, rfl, rfl⟩
      | false => exact hcall rfl
  | startsWith => exact hcall rfl
  | endsWith =>
      have hlength : scan .idle ("RIGHT(" ++ left ++ ", LENGTH(").toList
          = some ([.name "RIGHT", .opening] ++ leftTokens ++ [.comma, .name "LENGTH", .opening],
            .idle) :=
        scan_between rfl hleft rfl ⟨',', _, rfl, rfl⟩
      have hcalled := scan_between hlength hright
        (show scan .idle ")) == ".toList = some ([.closing, .closing, .relation .equal], .idle)
          from rfl) ⟨')', _, rfl, rfl⟩
      exact tokens?_append_of_idle hcalled hright
  | anyOf =>
      cases isList with
      | true => exact hinfix rfl ⟨' ', _, rfl, rfl⟩
      | false => exact hinfix rfl ⟨' ', _, rfl, rfl⟩
  | noneOf =>
      cases isList with
      | true => exact hinfix rfl ⟨' ', _, rfl, rfl⟩
      | false => exact hinfix rfl ⟨' ', _, rfl, rfl⟩

/-! ## Conditions -/

mutual
def Formula.IsNamed : Formula → Prop
  | .truth _ => True
  | .group _ parts => formulasAreNamed parts
  | .negation part => part.IsNamed
  | .presence access _ => isVariable access.base = true
  | .compare left _ _ right => isVariable left.base = true ∧ right.IsNamed
termination_by structural formula => formula

def formulasAreNamed : List Formula → Prop
  | [] => True
  | part :: parts => part.IsNamed ∧ formulasAreNamed parts
termination_by structural parts => parts
end

theorem scan_connective (connective : Connective) :
    scan .idle connective.text.toList = some ([connective.token], .idle) := by
  cases connective <;> rfl

theorem startsWithStop_connective (connective : Connective) : StartsWithStop connective.text := by
  cases connective with
  | and => exact ⟨' ', _, rfl, rfl⟩
  | or => exact ⟨' ', _, rfl, rfl⟩

mutual
theorem tokens?_formula : (formula : Formula) → formula.IsNamed →
    tokens? formula.text = some formula.tokens
  | .truth p, _ => tokens?_parameter p
  | .group connective parts, h => by
      have hopen : scan .idle "(".toList = some ([.opening], .idle) := rfl
      apply tokens?_of_scan
      exact scan_between hopen (tokens?_parts connective parts h) rfl ⟨')', _, rfl, rfl⟩
  | .negation part, h => by
      have hopen : scan .idle "NOT (".toList = some ([.keyword "NOT", .opening], .idle) := rfl
      apply tokens?_of_scan
      exact scan_between hopen (tokens?_formula part h) rfl ⟨')', _, rfl, rfl⟩
  | .presence _ isPresent, h => by
      cases isPresent with
      | true => exact tokens?_append (tokens?_access h) rfl ⟨' ', _, rfl, rfl⟩
      | false => exact tokens?_append (tokens?_access h) rfl ⟨' ', _, rfl, rfl⟩
  | .compare _ _ _ _, h => tokens?_compare (tokens?_access h.1) (tokens?_term h.2)
termination_by structural formula => formula

theorem tokens?_parts (connective : Connective) : (parts : List Formula) →
    formulasAreNamed parts →
      tokens? (connective.text.intercalate (formulaTexts parts))
        = some ([connective.token].intercalate (formulaTokens parts))
  | [], _ => rfl
  | [part], h => by
      simpa [formulaTexts, formulaTokens] using tokens?_formula part h.1
  | part :: next :: parts, h => by
      have hrest := tokens?_parts connective (next :: parts) h.2
      have hjoined := tokens?_infix (tokens?_formula part h.1) (scan_connective connective)
        (startsWithStop_connective connective) hrest
      simpa only [formulaTexts, formulaTokens, String.intercalate_cons_cons,
        List.intercalate_cons_cons] using hjoined
termination_by structural parts => parts
end

end DocGraph.Aql
