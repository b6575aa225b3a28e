import DocGraph.Proofs.Aql.Reader
import DocGraph.Proofs.Aql.Written
/-!
# What is read where a program wrote

A written condition is read as the condition it was written for.  Every group and every negated
condition stands in parentheses, and a single comparison ends before a connective or a closing
parenthesis; so nothing that stands around a condition changes how it is read.
-/

namespace DocGraph.Aql

/-! ## The condition that a formula writes -/

def lower (operator : Operator) (isList : Bool) (left right : Expression) : Expression :=
  match operator, isList with
  | .eq, _ => .compare .equal left right
  | .ne, _ => .compare .unequal left right
  | .gt, _ => .compare .greater left right
  | .gte, _ => .compare .atLeast left right
  | .lt, _ => .compare .less left right
  | .lte, _ => .compare .atMost left right
  | .contains, true => .compare .isIn right left
  | .contains, false => .call "CONTAINS" [left, right]
  | .notContains, true => .compare .notIn right left
  | .notContains, false => .negation (.call "CONTAINS" [left, right])
  | .startsWith, _ => .call "STARTS_WITH" [left, right]
  | .endsWith, _ => .compare .equal (.call "RIGHT" [left, .call "LENGTH" [right]]) right
  | .anyOf, true => .compare .anyIn left right
  | .anyOf, false => .compare .isIn left right
  | .noneOf, true => .compare .noneIn left right
  | .noneOf, false => .compare .notIn left right

def Connective.join : Connective → Expression → Expression → Expression
  | and => .conjunction
  | or => .disjunction

def Access.expression (access : Access) : Expression := .attribute access.base access.path

def Term.expression? (vars : Json.Members) : Term → Option Expression
  | parameter p => (Assoc.get? p.key vars).map .value
  | access a => some a.expression

def joinAll? (connective : Connective) : List Expression → Option Expression
  | [] => none
  | first :: rest => some (rest.foldl connective.join first)

mutual
def Formula.expression? (vars : Json.Members) : Formula → Option Expression
  | .truth p => (Assoc.get? p.key vars).map .value
  | .group connective parts => (formulaExpressions? vars parts).bind (joinAll? connective)
  | .negation part => (part.expression? vars).map .negation
  | .presence access isPresent =>
    some (.compare (if isPresent then .unequal else .equal) access.expression (.value .null))
  | .compare left isList operator right =>
    (right.expression? vars).map (lower operator isList left.expression)
termination_by structural formula => formula

def formulaExpressions? (vars : Json.Members) : List Formula → Option (List Expression)
  | [] => some []
  | part :: parts => do
    return (← part.expression? vars) :: (← formulaExpressions? vars parts)
termination_by structural parts => parts
end

/-! ## Plain expressions -/

variable {vars : Json.Members} {fuel : Nat} {condition : Reader}
variable {tokens rest : List Token} {left right : Expression}

/-- What may stand behind a field: nothing that would go on with it. -/
def EndsField (rest : List Token) : Prop :=
  ∀ token ∈ rest.head?, token ≠ .dot ∧ token ≠ .opening

theorem readPath_of_endsField (h : EndsField rest) : readPath rest = ([], rest) := by
  cases rest with
  | nil => rfl
  | cons token rest =>
      have hdot : token ≠ .dot := (h token rfl).1
      cases token with
      | dot => exact absurd rfl hdot
      | _ => rfl

theorem readPath_tokens (path : List String) (h : EndsField rest) :
    readPath ((path.flatMap fun name => [.dot, .quoted name]) ++ rest) = (path, rest) := by
  induction path with
  | nil => exact readPath_of_endsField h
  | cons name path ih =>
      simp only [List.flatMap_cons, List.cons_append, List.nil_append, readPath]
      rw [ih]

theorem readUnary_access (access : Access) (h : EndsField rest) :
    readUnary vars fuel condition (access.tokens ++ rest) = some (access.expression, rest) := by
  have hpath := readPath_tokens access.path h
  have hopening : ∀ others,
      (access.path.flatMap fun name => [.dot, .quoted name]) ++ rest ≠ Token.opening :: others := by
    intro others heq
    cases hnames : access.path with
    | nil =>
        rw [hnames] at heq
        rw [show rest = .opening :: others from heq] at h
        exact (h .opening rfl).2 rfl
    | cons name path => simp [hnames] at heq
  unfold Access.tokens
  rw [List.cons_append, readUnary, readPrimary]
  · rw [hpath]
    rfl
  · exact hopening
  · simp

theorem readUnary_term {term : Term} (hterm : term.expression? vars = some left)
    (h : EndsField rest) :
    readUnary vars fuel condition (term.tokens ++ rest) = some (left, rest) := by
  cases term with
  | parameter p =>
      obtain ⟨value, hvalue, rfl⟩ := Option.map_eq_some_iff.1 hterm
      simp [Term.tokens, readUnary, readPrimary, hvalue]
  | access a =>
      obtain rfl := Option.some.inj hterm
      exact readUnary_access a h

/-! ## Comparisons -/

def EndsComparison (rest : List Token) : Prop :=
  ∀ token ∈ rest.head?,
    token = .closing ∨ token = .comma ∨ token = .keyword "AND" ∨ token = .keyword "OR"

theorem EndsComparison.endsField (h : EndsComparison rest) : EndsField rest := by
  intro token htoken
  rcases h token htoken with rfl | rfl | rfl | rfl <;> decide

theorem readRelation_of_endsComparison (h : EndsComparison rest) : readRelation rest = none := by
  cases rest with
  | nil => rfl
  | cons token rest => rcases h token rfl with rfl | rfl | rfl | rfl <;> rfl

theorem readComparison_alone
    (hleft : readUnary vars fuel condition tokens = some (left, rest))
    (h : EndsComparison rest) : readComparison vars fuel condition tokens = some (left, rest) := by
  simp [readComparison, hleft, readRelation_of_endsComparison h]

theorem readComparison_pair {relation : Relation} {behind others : List Token}
    (hleft : readUnary vars fuel condition tokens = some (left, behind))
    (hrelation : readRelation behind = some (relation, others))
    (hright : readUnary vars fuel condition others = some (right, rest)) :
    readComparison vars fuel condition tokens = some (.compare relation left right, rest) := by
  simp [readComparison, hleft, hrelation, hright]

theorem readArguments_one (harguments : condition tokens = some (left, .closing :: rest)) :
    readArguments condition (fuel + 1) tokens = some ([left], rest) := by
  simp [readArguments, harguments]

theorem readArguments_two {others : List Token}
    (hleft : condition tokens = some (left, .comma :: others))
    (hright : condition others = some (right, .closing :: rest)) :
    readArguments condition (fuel + 2) tokens = some ([left, right], rest) := by
  simp [readArguments, hleft, hright]

theorem readUnary_call {function : String} {arguments : List Expression}
    (h : readArguments condition fuel tokens = some (arguments, rest)) :
    readUnary vars fuel condition (.name function :: .opening :: tokens)
      = some (.call function arguments, rest) := by
  simp [readUnary, readPrimary, h]

theorem readUnary_not (h : readUnary vars fuel condition tokens = some (left, rest)) :
    readUnary vars fuel condition (.keyword "NOT" :: tokens) = some (.negation left, rest) := by
  rw [readUnary, h]
  rfl

/-! ## Connectives -/

theorem readMore_stop {item : Reader} {separator : Token}
    {join : Expression → Expression → Expression} (h : ∀ token ∈ rest.head?, token ≠ separator) :
    readMore item separator join fuel left rest = some (left, rest) := by
  cases fuel with
  | zero => rfl
  | succ fuel =>
      cases rest with
      | nil => rfl
      | cons token rest => simp [readMore, h token rfl]

def EndsCondition (rest : List Token) : Prop :=
  ∀ token ∈ rest.head?, token = .closing ∨ token = .comma

theorem EndsCondition.endsComparison (h : EndsCondition rest) : EndsComparison rest := by
  intro token htoken
  rcases h token htoken with rfl | rfl
  · exact Or.inl rfl
  · exact Or.inr (Or.inl rfl)

theorem EndsCondition.ne_keyword (h : EndsCondition rest) (text : String) :
    ∀ token ∈ rest.head?, token ≠ .keyword text := by
  intro token htoken
  rcases h token htoken with rfl | rfl <;> simp

theorem readConjunction_of_comparison
    (hleft : readComparison vars fuel condition tokens = some (left, rest))
    (h : ∀ token ∈ rest.head?, token ≠ .keyword "AND") :
    readConjunction vars fuel condition tokens = some (left, rest) := by
  simp [readConjunction, hleft, readMore_stop h]

theorem readCondition_of_conjunction
    (hleft : readConjunction vars fuel (readCondition vars fuel) tokens = some (left, rest))
    (h : ∀ token ∈ rest.head?, token ≠ .keyword "OR") :
    readCondition vars (fuel + 1) tokens = some (left, rest) := by
  simp [readCondition, hleft, readMore_stop h]

theorem readCondition_of_comparison
    (hleft : readComparison vars fuel (readCondition vars fuel) tokens = some (left, rest))
    (h : EndsCondition rest) : readCondition vars (fuel + 1) tokens = some (left, rest) :=
  readCondition_of_conjunction (readConjunction_of_comparison hleft (h.ne_keyword _))
    (h.ne_keyword _)

theorem endsCondition_closing (rest : List Token) : EndsCondition (.closing :: rest) := by
  intro token htoken
  exact Or.inl (Option.some.inj htoken).symm

theorem endsCondition_comma (rest : List Token) : EndsCondition (.comma :: rest) := by
  intro token htoken
  exact Or.inr (Option.some.inj htoken).symm

theorem readCondition_term {term : Term} (hterm : term.expression? vars = some left)
    (h : EndsCondition rest) :
    readCondition vars (fuel + 1) (term.tokens ++ rest) = some (left, rest) :=
  readCondition_of_comparison
    (readComparison_alone (readUnary_term hterm h.endsComparison.endsField) h.endsComparison) h

section

variable {first second : Term}

theorem readComparison_terms {relation : Relation} {separator : List Token}
    (hfirst : first.expression? vars = some left) (hsecond : second.expression? vars = some right)
    (hseparator : ∀ others, EndsField (separator ++ others) ∧
      readRelation (separator ++ others) = some (relation, others))
    (h : EndsComparison rest) :
    readComparison vars fuel condition (first.tokens ++ separator ++ second.tokens ++ rest)
      = some (.compare relation left right, rest) := by
  rw [List.append_assoc, List.append_assoc]
  obtain ⟨hends, hrelation⟩ := hseparator (second.tokens ++ rest)
  exact readComparison_pair (readUnary_term hfirst hends) hrelation
    (readUnary_term hsecond h.endsField)

theorem readUnary_call_terms (fuel : Nat) (function : String)
    (hfirst : first.expression? vars = some left) (hsecond : second.expression? vars = some right)
    (rest : List Token) :
    readUnary vars (fuel + 2) (readCondition vars (fuel + 2))
      (.name function :: .opening ::
        (first.tokens ++ .comma :: (second.tokens ++ .closing :: rest)))
      = some (.call function [left, right], rest) := by
  apply readUnary_call
  apply readArguments_two
  · exact readCondition_term hfirst (endsCondition_comma _)
  · exact readCondition_term hsecond (endsCondition_closing rest)

theorem readUnary_right (fuel : Nat) (hfirst : first.expression? vars = some left)
    (hsecond : second.expression? vars = some right) (rest : List Token) :
    readUnary vars (fuel + 2) (readCondition vars (fuel + 2))
      (.name "RIGHT" :: .opening :: (first.tokens ++ .comma :: .name "LENGTH" :: .opening ::
        (second.tokens ++ .closing :: .closing :: rest)))
      = some (.call "RIGHT" [left, .call "LENGTH" [right]], rest) := by
  have hlength : readUnary vars (fuel + 1) (readCondition vars (fuel + 1))
      (.name "LENGTH" :: .opening :: (second.tokens ++ .closing :: .closing :: rest))
        = some (.call "LENGTH" [right], .closing :: rest) := by
    apply readUnary_call
    apply readArguments_one
    exact readCondition_term hsecond (endsCondition_closing _)
  apply readUnary_call
  apply readArguments_two
  · exact readCondition_term hfirst (endsCondition_comma _)
  · apply readCondition_of_comparison
    · exact readComparison_alone hlength (endsCondition_closing rest).endsComparison
    · exact endsCondition_closing rest

theorem readComparison_compare (isList : Bool) (operator : Operator)
    (hfirst : first.expression? vars = some left) (hsecond : second.expression? vars = some right)
    (h : EndsComparison rest) :
    readComparison vars (fuel + 2) (readCondition vars (fuel + 2))
      (compareTokens isList operator first.tokens second.tokens ++ rest)
      = some (lower operator isList left right, rest) := by
  have hpair : ∀ {relation separator},
      (∀ others, EndsField (separator ++ others) ∧
        readRelation (separator ++ others) = some (relation, others)) →
      readComparison vars (fuel + 2) (readCondition vars (fuel + 2))
        (first.tokens ++ separator ++ second.tokens ++ rest)
          = some (.compare relation left right, rest) :=
    fun hseparator => readComparison_terms hfirst hsecond hseparator h
  have hends : ∀ {token : Token} (others : List Token), token ≠ .dot ∧ token ≠ .opening →
      EndsField (token :: others) := by
    intro token others htoken next hnext
    exact Option.some.inj hnext ▸ htoken
  cases operator with
  | eq => exact hpair fun others => ⟨hends _ (by decide), rfl⟩
  | ne => exact hpair fun others => ⟨hends _ (by decide), rfl⟩
  | gt => exact hpair fun others => ⟨hends _ (by decide), rfl⟩
  | gte => exact hpair fun others => ⟨hends _ (by decide), rfl⟩
  | lt => exact hpair fun others => ⟨hends _ (by decide), rfl⟩
  | lte => exact hpair fun others => ⟨hends _ (by decide), rfl⟩
  | contains =>
      cases isList with
      | true =>
          exact readComparison_terms hsecond hfirst
            (fun others => ⟨hends _ (by decide), rfl⟩) h
      | false =>
          have hcall := readUnary_call_terms fuel "CONTAINS" hfirst hsecond rest
          simpa [compareTokens, lower] using readComparison_alone hcall h
  | notContains =>
      cases isList with
      | true =>
          exact readComparison_terms hsecond hfirst
            (fun others => ⟨hends _ (by decide), rfl⟩) h
      | false =>
          have hcall := readUnary_call_terms fuel "CONTAINS" hfirst hsecond rest
          simpa [compareTokens, lower] using readComparison_alone (readUnary_not hcall) h
  | startsWith =>
      have hcall := readUnary_call_terms fuel "STARTS_WITH" hfirst hsecond rest
      simpa [compareTokens, lower] using readComparison_alone hcall h
  | endsWith =>
      have hright := readUnary_right fuel hfirst hsecond
        (.relation .equal :: (second.tokens ++ rest))
      simpa [compareTokens, lower] using
        readComparison_pair hright rfl (readUnary_term hsecond h.endsField)
  | anyOf =>
      cases isList with
      | true => exact hpair fun others => ⟨hends _ (by decide), rfl⟩
      | false => exact hpair fun others => ⟨hends _ (by decide), rfl⟩
  | noneOf =>
      cases isList with
      | true => exact hpair fun others => ⟨hends _ (by decide), rfl⟩
      | false => exact hpair fun others => ⟨hends _ (by decide), rfl⟩

end

/-! ## Groups -/

theorem formulaExpressions?_cons_eq_some_iff {part : Formula} {parts : List Formula}
    {read : List Expression} :
    formulaExpressions? vars (part :: parts) = some read ↔ ∃ first others,
      part.expression? vars = some first ∧ formulaExpressions? vars parts = some others ∧
      read = first :: others := by
  simp only [formulaExpressions?, Option.bind_eq_bind, Option.bind_eq_some_iff, Option.pure_def,
    Option.some.injEq]
  constructor
  · rintro ⟨first, hfirst, others, hothers, rfl⟩
    exact ⟨first, others, hfirst, hothers, rfl⟩
  · rintro ⟨first, others, hfirst, hothers, rfl⟩
    exact ⟨first, hfirst, others, hothers, rfl⟩

def moreTokens (separator : Token) (parts : List Formula) : List Token :=
  parts.flatMap fun part => separator :: part.tokens

theorem intercalate_formulaTokens (separator : Token) (part : Formula) (parts : List Formula) :
    [separator].intercalate (formulaTokens (part :: parts))
      = part.tokens ++ moreTokens separator parts := by
  induction parts generalizing part with
  | nil => simp [formulaTokens, moreTokens]
  | cons next parts ih =>
      rw [formulaTokens, formulaTokens, List.intercalate_cons_cons, ← formulaTokens, ih]
      simp [moreTokens]

theorem length_le_moreTokens (separator : Token) (parts : List Formula) :
    parts.length ≤ (moreTokens separator parts).length := by
  induction parts with
  | nil => exact Nat.le_refl 0
  | cons part parts ih =>
      unfold moreTokens at ih ⊢
      rw [List.flatMap_cons, List.length_append, List.length_cons, List.length_cons]
      omega

theorem length_tokens_le_moreTokens (separator : Token) {part : Formula} {parts : List Formula}
    (h : part ∈ parts) : part.tokens.length ≤ (moreTokens separator parts).length := by
  induction parts with
  | nil => simp at h
  | cons first parts ih =>
      unfold moreTokens at ih ⊢
      rw [List.flatMap_cons, List.length_append, List.length_cons]
      rcases List.mem_cons.1 h with rfl | h
      · omega
      · have hpart := ih h
        omega

theorem readMore_parts {item : Reader} {separator : Token}
    {join : Expression → Expression → Expression} (Ends : List Token → Prop)
    {parts : List Formula} {read : List Expression} (left : Expression)
    (hread : formulaExpressions? vars parts = some read)
    (hitem : ∀ part ∈ parts, ∀ e others, part.expression? vars = some e → Ends others →
      item (part.tokens ++ others) = some (e, others))
    (hseparator : ∀ others, Ends (separator :: others)) (hrest : Ends rest)
    (hstop : ∀ token ∈ rest.head?, token ≠ separator) (hfuel : parts.length ≤ fuel) :
    readMore item separator join fuel left (moreTokens separator parts ++ rest)
      = some (read.foldl join left, rest) := by
  induction parts generalizing read left fuel with
  | nil =>
      obtain rfl := Option.some.inj hread
      exact readMore_stop hstop
  | cons part parts ih =>
      obtain ⟨first, others, hfirst, hothers, rfl⟩ :=
        formulaExpressions?_cons_eq_some_iff.1 hread
      have hends : Ends (moreTokens separator parts ++ rest) := by
        cases parts with
        | nil => exact hrest
        | cons next parts => exact hseparator _
      have hpart := hitem part List.mem_cons_self first _ hfirst hends
      cases fuel with
      | zero => simp at hfuel
      | succ fuel =>
          have hmore := ih (join left first) hothers
            (fun part hpart => hitem part (List.mem_cons_of_mem _ hpart))
            (Nat.le_of_succ_le_succ hfuel)
          rw [moreTokens, List.flatMap_cons, List.append_assoc, List.cons_append]
          simp only [readMore, if_true]
          rw [← moreTokens, hpart]
          exact hmore

/-- Some tokens are read as one comparison, whatever stands around them. -/
def ReadsAs (vars : Json.Members) (tokens : List Token) (e : Expression) : Prop :=
  ∀ fuel rest, tokens.length ≤ fuel → EndsComparison rest →
    readComparison vars fuel (readCondition vars fuel) (tokens ++ rest) = some (e, rest)

def EndsConjunction (rest : List Token) : Prop :=
  EndsComparison rest ∧ ∀ token ∈ rest.head?, token ≠ .keyword "AND"

theorem endsComparison_moreTokens (connective : Connective) (parts : List Formula)
    (h : EndsComparison rest) :
    EndsComparison (moreTokens connective.token parts ++ rest) := by
  cases parts with
  | nil => exact h
  | cons part parts =>
      intro token htoken
      obtain rfl := Option.some.inj htoken
      cases connective with
      | and => exact Or.inr (Or.inr (Or.inl rfl))
      | or => exact Or.inr (Or.inr (Or.inr rfl))

theorem readCondition_group {connective : Connective} {part : Formula} {parts : List Formula}
    {e : Expression}
    (hparts : ∀ p ∈ part :: parts, ∀ e, p.expression? vars = some e → ReadsAs vars p.tokens e)
    (he : (Formula.group connective (part :: parts)).expression? vars = some e)
    (hfuel : (part.tokens ++ moreTokens connective.token parts).length ≤ fuel)
    (hrest : EndsCondition rest) :
    readCondition vars (fuel + 1) (part.tokens ++ moreTokens connective.token parts ++ rest)
      = some (e, rest) := by
  obtain ⟨read, hread, he⟩ := Option.bind_eq_some_iff.1 he
  obtain ⟨first, others, hfirst, hothers, rfl⟩ := formulaExpressions?_cons_eq_some_iff.1 hread
  obtain rfl := Option.some.inj he
  rw [List.length_append] at hfuel
  have hcount := length_le_moreTokens connective.token parts
  have hmore := endsComparison_moreTokens connective parts hrest.endsComparison
  have hleft := hparts part List.mem_cons_self first hfirst fuel _ (by omega) hmore
  have hitem : ∀ p ∈ parts, ∀ e others, p.expression? vars = some e → EndsComparison others →
      readComparison vars fuel (readCondition vars fuel) (p.tokens ++ others)
        = some (e, others) := by
    intro p hp e others he hends
    have hlength := length_tokens_le_moreTokens connective.token hp
    exact hparts p (List.mem_cons_of_mem _ hp) e he fuel others (by omega) hends
  rw [List.append_assoc]
  cases connective with
  | and =>
      have hseparator : ∀ others, EndsComparison (.keyword "AND" :: others) := by
        intro others token htoken
        exact Or.inr (Or.inr (Or.inl (Option.some.inj htoken).symm))
      apply readCondition_of_conjunction
      · rw [readConjunction, hleft]
        exact readMore_parts EndsComparison first hothers hitem hseparator hrest.endsComparison
          (hrest.ne_keyword _) (by omega)
      · exact hrest.ne_keyword _
  | or =>
      -- Each part is a conjunction of its own: what follows it is no further `AND`.
      have hor : ∀ others, EndsConjunction (.keyword "OR" :: others) := by
        intro others
        constructor
        · intro token htoken
          exact Or.inr (Or.inr (Or.inr (Option.some.inj htoken).symm))
        · intro token htoken
          obtain rfl := Option.some.inj htoken
          decide
      have hfollow : ∀ token ∈ (moreTokens Connective.or.token parts ++ rest).head?,
          token ≠ .keyword "AND" := by
        cases parts with
        | nil => exact hrest.ne_keyword _
        | cons next parts => exact (hor _).2
      have hfirst := readConjunction_of_comparison hleft hfollow
      simp only [readCondition]
      rw [hfirst]
      exact readMore_parts EndsConjunction first hothers
        (fun p hp e others he hends =>
          readConjunction_of_comparison (hitem p hp e others he hends.1) hends.2)
        hor ⟨hrest.endsComparison, hrest.ne_keyword _⟩ (hrest.ne_keyword _) (by omega)

theorem readsAs_parentheses {e : Expression}
    (h : ∀ fuel rest, tokens.length ≤ fuel → EndsCondition rest →
      readCondition vars (fuel + 1) (tokens ++ rest) = some (e, rest)) (fuel : Nat)
    (hfuel : tokens.length < fuel) (rest : List Token) :
    readUnary vars fuel (readCondition vars fuel) (.opening :: (tokens ++ .closing :: rest))
      = some (e, rest) := by
  cases fuel with
  | zero => simp at hfuel
  | succ fuel =>
      have hinner := h fuel (.closing :: rest) (by omega) (endsCondition_closing rest)
      simp [readUnary, readPrimary, hinner]

theorem length_pos_tokens (term : Term) : 0 < term.tokens.length := by
  cases term <;> simp [Term.tokens, Access.tokens]

theorem two_le_length_compareTokens (isList : Bool) (operator : Operator) (first second : Term) :
    2 ≤ (compareTokens isList operator first.tokens second.tokens).length := by
  have hfirst := length_pos_tokens first
  have hsecond := length_pos_tokens second
  cases operator <;> cases isList <;>
    simp only [compareTokens, List.length_append, List.length_cons, List.length_nil] <;> omega

mutual
theorem readsAs_formula : (formula : Formula) → ∀ e, formula.expression? vars = some e →
    ReadsAs vars formula.tokens e
  | .truth p, e, he => by
      intro fuel rest _ hrest
      have hterm : (Term.parameter p).expression? vars = some e := he
      exact readComparison_alone (readUnary_term hterm hrest.endsField) hrest
  | .group connective parts, e, he => by
      intro fuel rest hfuel hrest
      have hparts := readsAs_parts parts
      cases parts with
      | nil => simp [Formula.expression?, formulaExpressions?, joinAll?] at he
      | cons part parts =>
          simp only [Formula.tokens, intercalate_formulaTokens, List.length_cons,
            List.length_append, List.length_nil] at hfuel ⊢
          have hunary := readsAs_parentheses
            (fun fuel rest hfuel hrest => readCondition_group hparts he hfuel hrest)
            fuel (by rw [List.length_append]; omega) rest
          simpa using readComparison_alone hunary hrest
  | .negation part, e, he => by
      intro fuel rest hfuel hrest
      obtain ⟨inner, hinner, rfl⟩ := Option.map_eq_some_iff.1 he
      have hpart := readsAs_formula part inner hinner
      simp only [Formula.tokens, List.length_cons, List.length_append, List.length_nil] at hfuel
      have hunary := readsAs_parentheses
        (fun fuel rest hfuel hrest =>
          readCondition_of_comparison (hpart fuel rest hfuel hrest.endsComparison) hrest)
        fuel (by omega) rest
      simpa [Formula.tokens] using readComparison_alone (readUnary_not hunary) hrest
  | .presence access isPresent, e, he => by
      intro fuel rest _ hrest
      obtain rfl := Option.some.inj he
      have hnull : readUnary vars fuel (readCondition vars fuel) (.keyword "NULL" :: rest)
          = some (.value .null, rest) := by
        simp [readUnary, readPrimary]
      have hends : EndsField (.relation (if isPresent then .unequal else .equal) ::
          .keyword "NULL" :: rest) := by
        intro token htoken
        obtain rfl := Option.some.inj htoken
        simp
      simpa [Formula.tokens] using
        readComparison_pair (readUnary_access access hends) rfl hnull
  | .compare left isList operator right, e, he => by
      intro fuel rest hfuel hrest
      obtain ⟨second, hsecond, rfl⟩ := Option.map_eq_some_iff.1 he
      have hfirst : (Term.access left).expression? vars = some left.expression := rfl
      -- Reading the arguments of a function as conditions takes two steps.
      have hlength := two_le_length_compareTokens isList operator (.access left) right
      obtain ⟨more, rfl⟩ : ∃ more, fuel = more + 2 := ⟨fuel - 2, by
        have hle : 2 ≤ fuel := Nat.le_trans hlength hfuel
        omega⟩
      exact readComparison_compare isList operator hfirst hsecond hrest
termination_by structural formula => formula

theorem readsAs_parts : (parts : List Formula) → ∀ part ∈ parts, ∀ e,
    part.expression? vars = some e → ReadsAs vars part.tokens e
  | [], _, hmem => by simp at hmem
  | first :: parts, part, hmem => by
      have hfirst := readsAs_formula first
      have hothers := readsAs_parts parts
      rcases List.mem_cons.1 hmem with heq | hmem
      · rw [heq]
        exact hfirst
      · exact hothers part hmem
termination_by structural parts => parts
end

/-- A condition is read back from its text. -/
theorem read?_text {formula : Formula} {e : Expression} (hnamed : formula.IsNamed)
    (he : formula.expression? vars = some e) : read? vars formula.text = some e := by
  have hnil : EndsCondition [] := by
    intro token htoken
    simp at htoken
  have hread := readsAs_formula formula e he formula.tokens.length [] (Nat.le_refl _)
    hnil.endsComparison
  rw [List.append_nil] at hread
  simp [read?, tokens?_formula formula hnamed, readCondition_of_comparison hread hnil]

end DocGraph.Aql
