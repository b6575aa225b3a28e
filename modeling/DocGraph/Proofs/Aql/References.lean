import DocGraph.Proofs.Aql.Run
import DocGraph.Proofs.Query.Scope
import Mathlib.Data.List.SplitBy
/-!
# Variables in the words of a program

A program is read clause by clause.  A clause that loops binds variables, and whatever else is a
name in it is a variable that it uses, unless the name stands behind a dot or before a parenthesis.
The words of each statement use what the node behind it refers to, and nothing else.
-/

namespace DocGraph.Aql

/-! ## Reading variables -/

def quotedPath : List Lexeme → List String
  | .token .dot :: .token (.quoted name) :: rest => name :: quotedPath rest
  | _ => []

/-- The variables among some words, each with the path of attributes behind it. -/
def references : List Lexeme → List Access
  | [] => []
  | .token .dot :: .token (.name _) :: rest => references rest
  | .token (.name _) :: .token .opening :: rest => references rest
  | .token (.name name) :: rest => ⟨name, quotedPath rest⟩ :: references rest
  | _ :: rest => references rest

def splitLoop : List Lexeme → List String × List Lexeme
  | .token (.keyword "FOR") :: .token (.name vertex) :: .token .comma :: .token (.name edge)
      :: rest => ([vertex, edge], rest)
  | .token (.keyword "FOR") :: .token (.name name) :: rest => ([name], rest)
  | clause => ([], clause)

def boundIn (clause : List Lexeme) : List String := (splitLoop clause).1

def usedIn (clause : List Lexeme) : List Access := references (splitLoop clause).2

def Lexeme.beginsClause : Lexeme → Bool
  | .token (.keyword word) => ["FOR", "FILTER", "SORT", "LIMIT", "RETURN"].contains word
  | _ => false

def clauses (words : List Lexeme) : List (List Lexeme) :=
  words.splitBy fun _ next => !next.beginsClause

/-! ## Words that are no variables -/

/-- Words that neither use a variable nor change what is used behind them. -/
def Lexeme.IsPlain (word : Lexeme) : Prop :=
  (∀ name, word ≠ .token (.name name)) ∧ word ≠ .token .dot

theorem references_plain {word : Lexeme} (hname : ∀ name, word ≠ .token (.name name))
    (hdot : word ≠ .token .dot) (rest : List Lexeme) :
    references (word :: rest) = references rest := by
  cases word with
  | token token =>
      cases token with
      | name name => exact absurd rfl (hname name)
      | dot => exact absurd rfl hdot
      | _ => rfl
  | _ => rfl

theorem references_call (function : String) (rest : List Lexeme) :
    references (.token (.name function) :: .token .opening :: rest) = references rest := rfl

def Stops (rest : List Lexeme) : Prop :=
  ∀ word, rest.head? = some word → word ≠ .token .dot ∧ word ≠ .token .opening

theorem stops_nil : Stops [] := by simp [Stops]

theorem stops_cons {word : Lexeme} {rest : List Lexeme} :
    Stops (word :: rest) ↔ word ≠ .token .dot ∧ word ≠ .token .opening := by
  simp [Stops]

theorem references_name {name : String} {rest : List Lexeme} (h : Stops rest) :
    references (.token (.name name) :: rest) = ⟨name, []⟩ :: references rest := by
  cases rest with
  | nil => rfl
  | cons word rest =>
      obtain ⟨hdot, hopening⟩ := stops_cons.1 h
      cases word with
      | token token => cases token <;> first | rfl | contradiction
      | _ => rfl

theorem quotedPath_append {rest : List Lexeme} (h : Stops rest) (path : List String) :
    quotedPath ((path.flatMap fun name => [.token .dot, .token (.quoted name)]) ++ rest) =
      path := by
  induction path with
  | nil =>
      cases rest with
      | nil => rfl
      | cons word rest =>
          obtain ⟨hdot, _⟩ := stops_cons.1 h
          cases word with
          | token token => cases token <;> first | rfl | contradiction
          | _ => rfl
  | cons name path ih => exact congrArg (name :: ·) ih

theorem references_path (path : List String) (rest : List Lexeme) :
    references ((path.flatMap fun name => [.token .dot, .token (.quoted name)]) ++ rest)
      = references rest := by
  induction path with
  | nil => rfl
  | cons name path ih => exact ih

theorem references_access (access : Access) {rest : List Lexeme} (h : Stops rest) :
    references (access.lexemes ++ rest) = access :: references rest := by
  obtain ⟨base, path⟩ := access
  have hlexemes : (Access.mk base path).lexemes
      = .token (.name base) :: path.flatMap fun name => [.token .dot, .token (.quoted name)] := by
    simp [Access.lexemes, Access.tokens, List.map_flatMap]
  rw [hlexemes, List.cons_append]
  cases path with
  | nil => exact references_name h
  | cons name path =>
      have hpath := quotedPath_append h (name :: path)
      have hrest := references_path (name :: path) rest
      simp only [List.flatMap_cons, List.cons_append, List.nil_append] at hpath hrest ⊢
      rw [references, hpath, hrest]
      simp

/-! ## What words use -/

/-- Some words use exactly these variables, whatever ends them. -/
def Refers (words : List Lexeme) (uses : Access → Prop) : Prop :=
  ∀ rest, Stops rest → ∀ r, r ∈ references (words ++ rest) ↔ uses r ∨ r ∈ references rest

variable {words words' : List Lexeme} {uses uses' : Access → Prop}

theorem Refers.mem (h : Refers words uses) {r : Access} : r ∈ references words ↔ uses r := by
  have hwords := h [] stops_nil r
  rw [List.append_nil] at hwords
  simpa [references] using hwords

theorem Refers.congr (h : Refers words uses) (huses : ∀ r, uses' r ↔ uses r) :
    Refers words uses' := by
  intro rest hrest r
  rw [h rest hrest r, huses]

theorem refers_nil : Refers [] fun _ => False := by
  intro rest _ r
  simp

theorem refers_plain {word : Lexeme} (h : word.IsPlain) (hwords : Refers words uses) :
    Refers (word :: words) uses := by
  intro rest hrest r
  rw [List.cons_append, references_plain h.1 h.2]
  exact hwords rest hrest r

theorem Refers.append (h : Refers words uses) (h' : Refers words' uses')
    (hstops : ∀ rest, Stops rest → Stops (words' ++ rest)) :
    Refers (words ++ words') fun r => uses r ∨ uses' r := by
  intro rest hrest r
  rw [List.append_assoc, h _ (hstops rest hrest), h' rest hrest, or_assoc]

theorem refers_access (access : Access) : Refers access.lexemes (· = access) := by
  intro rest hrest r
  rw [references_access access hrest, List.mem_cons]

theorem refers_parameter (p : Parameter) : Refers [p.lexeme] fun _ => False :=
  refers_plain (by simp [Lexeme.IsPlain, Parameter.lexeme]) refers_nil

/-- Words between separators are read one after the other. -/
theorem refers_list {β : Type} {separator : Lexeme} (hplain : separator.IsPlain)
    (hopening : separator ≠ .token .opening) {words : β → List Lexeme} {uses : β → Access → Prop}
    {items : List β} (h : ∀ item ∈ items, Refers (words item) (uses item)) :
    Refers ([separator].intercalate (items.map words)) fun r => ∃ item ∈ items, uses item r := by
  induction items with
  | nil => exact refers_nil.congr (by simp)
  | cons item items ih =>
      obtain ⟨hitem, hitems⟩ := List.forall_mem_cons.1 h
      cases items with
      | nil => simpa using hitem.congr (by simp)
      | cons next items =>
          rw [List.map_cons, List.map_cons, List.intercalate_cons_cons, List.append_assoc]
          refine (hitem.append (refers_plain hplain (ih hitems)) ?_).congr (by simp)
          intro rest _
          exact stops_cons.2 ⟨hplain.2, hopening⟩

/-! ## Conditions -/

def Term.accesses : Term → List Access
  | parameter _ => []
  | access a => [a]

mutual
def Formula.accesses : Formula → List Access
  | .truth _ => []
  | .group _ parts => formulaAccesses parts
  | .negation part => part.accesses
  | .presence access _ => [access]
  | .compare left _ _ right => left :: right.accesses
termination_by structural formula => formula

def formulaAccesses : List Formula → List Access
  | [] => []
  | part :: parts => part.accesses ++ formulaAccesses parts
termination_by structural parts => parts
end

theorem refers_compare {isList : Bool} {operator : Operator} {left right : List Token}
    (hleft : Refers (left.map .token) uses) (hright : Refers (right.map .token) uses') :
    Refers ((compareTokens isList operator left right).map .token) fun r => uses r ∨ uses' r := by
  intro rest hrest r
  cases operator <;> cases isList <;>
    simp [compareTokens, references_plain, references_call, stops_cons, hrest,
      hleft _ _ r, hright _ _ r, or_assoc]
  all_goals tauto

theorem lexemes_group (connective : Connective) (parts : List Formula) :
    (Formula.group connective parts).lexemes = .token .opening ::
      ([.token connective.token].intercalate (parts.map Formula.lexemes) ++ [.token .closing]) := by
  have htokens : (formulaTokens parts).map (List.map .token) = parts.map Formula.lexemes := by
    induction parts with
    | nil => rfl
    | cons part parts ih => exact congrArg (part.lexemes :: ·) ih
  rw [← htokens]
  simp [Formula.lexemes, Formula.tokens, map_intercalate]

theorem mem_formulaAccesses {parts : List Formula} {r : Access} :
    r ∈ formulaAccesses parts ↔ ∃ part ∈ parts, r ∈ part.accesses := by
  induction parts with
  | nil => simp [formulaAccesses]
  | cons part parts ih => simp [formulaAccesses, ih]

theorem Refers.close (h : Refers words uses) : Refers (words ++ [.token .closing]) uses := by
  have hclosing : Refers [.token .closing] fun _ => False :=
    refers_plain (by simp [Lexeme.IsPlain]) refers_nil
  exact (h.append hclosing fun rest _ => stops_cons.2 (by simp)).congr (by simp)

mutual
theorem refers_formula : (formula : Formula) → Refers formula.lexemes (· ∈ formula.accesses)
  | .truth p => (refers_parameter p).congr (by simp [Formula.accesses])
  | .group connective parts => by
      have hconnective : Lexeme.IsPlain (.token connective.token) := by
        cases connective <;> simp [Lexeme.IsPlain, Connective.token]
      have hopening : Lexeme.token connective.token ≠ .token .opening := by
        cases connective <;> simp [Connective.token]
      rw [lexemes_group]
      refine refers_plain (by simp [Lexeme.IsPlain]) (Refers.close ?_)
      refine (refers_list hconnective hopening (refers_formulas parts)).congr fun r => ?_
      exact mem_formulaAccesses
  | .negation part => by
      have hpart := (refers_formula part).close
      have hlexemes : (Formula.negation part).lexemes
          = keyword "NOT" :: .token .opening :: (part.lexemes ++ [.token .closing]) := by
        simp [Formula.lexemes, Formula.tokens, keyword]
      rw [hlexemes]
      exact refers_plain (by simp [Lexeme.IsPlain, keyword])
        (refers_plain (by simp [Lexeme.IsPlain]) hpart)
  | .presence access isPresent => by
      have hlexemes : (Formula.presence access isPresent).lexemes = access.lexemes
          ++ [.token (.relation (if isPresent then .unequal else .equal)), keyword "NULL"] := by
        simp [Formula.lexemes, Formula.tokens, Access.lexemes, keyword]
      rw [hlexemes]
      refine ((refers_access access).append (refers_plain ?_ (refers_plain ?_ refers_nil)) ?_).congr
        (by simp [Formula.accesses])
      · simp [Lexeme.IsPlain]
      · simp [Lexeme.IsPlain, keyword]
      · exact fun rest _ => stops_cons.2 (by simp)
  | .compare left isList operator right => by
      have hright : Refers (right.tokens.map .token) (· ∈ right.accesses) := by
        cases right with
        | parameter p => exact (refers_parameter p).congr (by simp [Term.accesses])
        | access a => exact (refers_access a).congr (by simp [Term.accesses])
      exact (refers_compare (refers_access left) hright).congr (by simp [Formula.accesses])
termination_by structural formula => formula

theorem refers_formulas : (parts : List Formula) →
    ∀ part ∈ parts, Refers part.lexemes (· ∈ part.accesses)
  | [] => by simp
  | part :: parts => List.forall_mem_cons.2 ⟨refers_formula part, refers_formulas parts⟩
termination_by structural parts => parts
end

/-! ## What conditions compile to -/

variable {current : String} {bound middle after : Bound}

theorem accesses_group {connective : Connective} {parts : List Formula} {formula : Formula}
    (hrun : (group connective parts).run bound = .ok (formula, after)) :
    formula.accesses = formulaAccesses parts := by
  match parts with
  | [] =>
      obtain ⟨p, middle, _, hpure⟩ := run_bind_eq_ok_iff.1 hrun
      obtain ⟨rfl, _⟩ := run_pure_eq_ok_iff.1 hpure
      rfl
  | [part] =>
      obtain ⟨rfl, _⟩ := run_pure_eq_ok_iff.1 hrun
      exact (List.append_nil _).symm
  | first :: second :: rest =>
      obtain ⟨rfl, _⟩ := run_pure_eq_ok_iff.1 hrun
      rfl

theorem accesses_operand {operand : Operand} {term : Term}
    (hrun : (compileOperand current operand).run bound = .ok (term, after)) :
    term.accesses = operand.fields.map (access current) := by
  cases operand with
  | literal value =>
      obtain ⟨p, middle, _, hpure⟩ := run_bind_eq_ok_iff.1 hrun
      obtain ⟨rfl, _⟩ := run_pure_eq_ok_iff.1 hpure
      rfl
  | field field =>
      obtain ⟨rfl, _⟩ := run_pure_eq_ok_iff.1 hrun
      rfl

mutual
/-- A condition compiles to one about the same fields. -/
theorem accesses_condition (current : String) : (condition : Condition) →
    ∀ {formula : Formula} {bound after : Bound},
      (compileCondition current condition).run bound = .ok (formula, after) →
      formula.accesses = condition.fields.map (access current)
  | .all parts, _, _, _, hrun => by
      obtain ⟨formulas, middle, hparts, hgroup⟩ := run_bind_eq_ok_iff.1 hrun
      exact (accesses_group hgroup).trans (accesses_parts current parts hparts)
  | .any parts, _, _, _, hrun => by
      obtain ⟨formulas, middle, hparts, hgroup⟩ := run_bind_eq_ok_iff.1 hrun
      exact (accesses_group hgroup).trans (accesses_parts current parts hparts)
  | .negation part, _, _, _, hrun => by
      obtain ⟨inner, middle, hpart, hpure⟩ := run_bind_eq_ok_iff.1 hrun
      obtain ⟨rfl, _⟩ := run_pure_eq_ok_iff.1 hpure
      have haccesses := accesses_condition current part hpart
      exact haccesses
  | .presence _ _, _, _, _, hrun => by
      obtain ⟨rfl, _⟩ := run_pure_eq_ok_iff.1 hrun
      rfl
  | .compare field operator operand, _, _, _, hrun => by
      unfold compileCondition at hrun
      by_cases hlacks : lacksCandidates operator operand = true
      · rw [if_pos hlacks] at hrun
        cases hrun
      · rw [if_neg hlacks] at hrun
        obtain ⟨term, middle, hterm, hpure⟩ := run_bind_eq_ok_iff.1 hrun
        obtain ⟨rfl, _⟩ := run_pure_eq_ok_iff.1 hpure
        exact congrArg (access current field :: ·) (accesses_operand hterm)
termination_by structural condition => condition

theorem accesses_parts (current : String) : (parts : List Condition) →
    ∀ {formulas : List Formula} {bound after : Bound},
      (compileConditions current parts).run bound = .ok (formulas, after) →
      formulaAccesses formulas = (Condition.fieldsOf parts).map (access current)
  | [], _, _, _, hrun => by
      obtain ⟨rfl, _⟩ := run_pure_eq_ok_iff.1 hrun
      rfl
  | part :: parts, _, _, _, hrun => by
      obtain ⟨formula, middle, hformula, hrun⟩ := run_bind_eq_ok_iff.1 hrun
      obtain ⟨formulas, last, hformulas, hpure⟩ := run_bind_eq_ok_iff.1 hrun
      obtain ⟨rfl, _⟩ := run_pure_eq_ok_iff.1 hpure
      rw [formulaAccesses, Condition.fieldsOf, List.map_append,
        accesses_condition current part hformula, accesses_parts current parts hformulas]
termination_by structural parts => parts
end

/-! ## Results -/

def RowSource.reference : RowSource → Access
  | access a => a
  | document name => ⟨name, []⟩

def Result.accesses : Result → List Access
  | document name => [⟨name, []⟩]
  | row attributes => attributes.map fun entry => entry.2.reference

theorem refers_variable (name : String) : Refers [variableNamed name] (· = ⟨name, []⟩) :=
  refers_access ⟨name, []⟩

theorem refers_attribute (entry : String × RowSource) :
    Refers (attributeLexemes entry) (· = entry.2.reference) := by
  refine refers_plain (by simp [Lexeme.IsPlain]) (refers_plain (by simp [Lexeme.IsPlain]) ?_)
  cases entry.2 with
  | access a => exact refers_access a
  | document name => exact refers_variable name

theorem refers_result (result : Result) : Refers result.lexemes (· ∈ result.accesses) := by
  cases result with
  | document name => exact (refers_variable name).congr (by simp [Result.accesses])
  | row attributes =>
      have hcomma : Lexeme.IsPlain (.token .comma) := by simp [Lexeme.IsPlain]
      have hlist := refers_list hcomma (by simp) fun (entry : String × RowSource)
        (_ : entry ∈ attributes) => refers_attribute entry
      have hclosing : Refers [.braceClosing] fun _ => False :=
        refers_plain (by simp [Lexeme.IsPlain]) refers_nil
      have hrow := hlist.append hclosing fun rest _ => stops_cons.2 (by simp)
      refine (refers_plain (by simp [Lexeme.IsPlain]) hrow).congr fun r => ?_
      simp [Result.accesses, eq_comm]

/-! ## Clauses -/

def accessesOf (current : String) : QueryNode → List Access
  | .filter condition => condition.fields.map (access current)
  | .sort keys => keys.map fun key => access current key.field
  | .limit .. => []
  | .project attributes _ =>
    attributes.map fun projection => (compileSource current projection.source).reference
  | .traverse traversal => [⟨traversal.start?.getD current, []⟩]
  | .join _ => []

theorem usedIn_keyword {word : String} (h : word ≠ "FOR") (words : List Lexeme) :
    boundIn (keyword word :: words) = [] ∧ usedIn (keyword word :: words) = references words := by
  have hsplit : splitLoop (keyword word :: words) = ([], keyword word :: words) := by
    simp [splitLoop, keyword, h]
  rw [boundIn, usedIn, hsplit]
  exact ⟨rfl, references_plain (by simp [keyword]) (by simp [keyword]) words⟩

theorem splitLoop_step (vertex : String) (edge? : Option String) (words : List Lexeme) :
    splitLoop (keyword "FOR" :: (stepLexemes vertex edge? ++ keyword "IN" :: words))
      = (vertex :: edge?.toList, keyword "IN" :: words) := by
  cases edge? <;> rfl

theorem refers_key (key : Access × SortDirection) : Refers (keyLexemes key) (· = key.1) := by
  have hdirection : Refers [keyword (directionText key.2)] fun _ => False :=
    refers_plain (by simp [Lexeme.IsPlain, keyword]) refers_nil
  exact ((refers_access key.1).append hdirection fun rest _ =>
    stops_cons.2 (by simp [keyword])).congr (by simp)

theorem refers_edges (edges : TraversalEdges) : Refers edges.lexemes fun _ => False := by
  cases edges with
  | graph p => exact refers_plain (by simp [Lexeme.IsPlain, keyword]) (refers_parameter p)
  | collections ps =>
      have hcomma : Lexeme.IsPlain (.token .comma) := by simp [Lexeme.IsPlain]
      exact (refers_list hcomma (by simp) fun p (_ : p ∈ ps) => refers_parameter p).congr (by simp)

theorem reads_traverse (vertex start : String) (edge? : Option String) (minDepth maxDepth : Nat)
    (direction : Direction) (edges : TraversalEdges) {clause : List Lexeme}
    (hclause : clause
      = (Statement.traverse vertex edge? minDepth maxDepth direction start edges).lexemes) :
    boundIn clause = vertex :: edge?.toList ∧ ∀ r, r ∈ usedIn clause ↔ r = ⟨start, []⟩ := by
  have hlexemes : clause = keyword "FOR" :: (stepLexemes vertex edge? ++ keyword "IN" ::
      .number (toString minDepth) :: .token .dot :: .token .dot :: .number (toString maxDepth) ::
      keyword direction.keyword :: variableNamed start :: .token .dot :: variableNamed "_id" ::
      edges.lexemes) := by
    rw [hclause]
    simp [Statement.lexemes]
  rw [boundIn, usedIn, hlexemes, splitLoop_step]
  refine ⟨rfl, fun r => ?_⟩
  change r ∈ ⟨start, []⟩ :: references edges.lexemes ↔ _
  rw [List.mem_cons, (refers_edges edges).mem, or_false]

variable {node : QueryNode} {statement : Statement}

/-- A statement binds what its node binds and uses what its node refers to. -/
theorem NodeRun.reads (hrun : NodeRun current node bound statement after) :
    boundIn statement.lexemes = node.bindings.map (·.var) ∧
      ∀ r, r ∈ usedIn statement.lexemes ↔ r ∈ accessesOf current node := by
  cases hrun with
  | @filter condition formula _ _ hcondition =>
      obtain ⟨hbound, hused⟩ := usedIn_keyword (by decide : "FILTER" ≠ "FOR") formula.lexemes
      refine ⟨hbound, fun r => ?_⟩
      rw [Statement.lexemes, hused, (refers_formula formula).mem,
        accesses_condition current condition hcondition]
      rfl
  | sort keys =>
      have hcomma : Lexeme.IsPlain (.token .comma) := by simp [Lexeme.IsPlain]
      have hlist := refers_list hcomma (by simp) fun (key : Access × SortDirection)
        (_ : key ∈ keys.map fun key => (access current key.field, key.direction)) =>
          refers_key key
      obtain ⟨hbound, hused⟩ := usedIn_keyword (by decide : "SORT" ≠ "FOR") _
      refine ⟨hbound, fun r => ?_⟩
      rw [Statement.lexemes, hused, hlist.mem]
      simp [accessesOf, eq_comm]
  | @limit _ p _ _ hcount =>
      obtain ⟨hbound, hused⟩ := usedIn_keyword (by decide : "LIMIT" ≠ "FOR") [p.lexeme]
      refine ⟨hbound, fun r => ?_⟩
      rw [Statement.lexemes, hused, (refers_parameter p).mem]
      simp [accessesOf]
  | @slice _ _ p q _ _ _ hoffset hcount =>
      have hboth : Refers [p.lexeme, .token .comma, q.lexeme] fun _ => False :=
        refers_plain (by simp [Lexeme.IsPlain, Parameter.lexeme])
          (refers_plain (by simp [Lexeme.IsPlain]) (refers_parameter q))
      obtain ⟨hbound, hused⟩ := usedIn_keyword (by decide : "LIMIT" ≠ "FOR") _
      refine ⟨hbound, fun r => ?_⟩
      rw [Statement.lexemes, hused, hboth.mem]
      simp [accessesOf]
  | @traverse traversal edges _ _ hdepth hedges =>
      obtain ⟨hbound, hused⟩ := reads_traverse traversal.vertex.var (traversal.start?.getD current)
        (traversal.edge?.map (·.var)) traversal.minDepth traversal.maxDepth traversal.direction
        edges rfl
      refine ⟨hbound.trans ?_, fun r => (hused r).trans List.mem_singleton.symm⟩
      cases hedge : traversal.edge? <;> simp [QueryNode.bindings, hedge]
  | @join binding p _ _ hcollection =>
      refine ⟨rfl, fun r => ?_⟩
      have hused : usedIn (Statement.forEach binding.var p).lexemes = [] := rfl
      rw [hused]
      rfl

theorem reads_result (result : Result) :
    boundIn (keyword "RETURN" :: result.lexemes) = [] ∧
      ∀ r, r ∈ usedIn (keyword "RETURN" :: result.lexemes) ↔ r ∈ result.accesses := by
  obtain ⟨hbound, hused⟩ := usedIn_keyword (by decide : "RETURN" ≠ "FOR") result.lexemes
  refine ⟨hbound, fun r => ?_⟩
  rw [hused, (refers_result result).mem]

/-! ## The clauses of a program -/

def Program.clauses (program : Program) : List (List Lexeme) :=
  program.statements.map Statement.lexemes ++ [keyword "RETURN" :: program.result.lexemes]

def AreInner (words : List Lexeme) : Prop := ∀ word ∈ words, word.beginsClause = false

theorem areInner_cons {word : Lexeme} {words : List Lexeme} :
    AreInner (word :: words) ↔ word.beginsClause = false ∧ AreInner words := List.forall_mem_cons

theorem areInner_append {words words' : List Lexeme} :
    AreInner (words ++ words') ↔ AreInner words ∧ AreInner words' := List.forall_mem_append

theorem areInner_nil : AreInner [] := by simp [AreInner]

theorem areInner_list {β : Type} {separator : Lexeme} (hseparator : separator.beginsClause = false)
    {words : β → List Lexeme} {items : List β} (h : ∀ item ∈ items, AreInner (words item)) :
    AreInner ([separator].intercalate (items.map words)) := by
  intro word hword
  rcases mem_intercalate hword with hword | ⟨part, hpart, hword⟩
  · rw [List.mem_singleton.1 hword]
    exact hseparator
  · obtain ⟨item, hitem, rfl⟩ := List.mem_map.1 hpart
    exact h item hitem word hword

theorem areInner_access (access : Access) : AreInner access.lexemes := by
  intro word hword
  obtain ⟨token, htoken, rfl⟩ := List.mem_map.1 hword
  unfold Access.tokens at htoken
  rcases List.mem_cons.1 htoken with rfl | htoken
  · rfl
  · obtain ⟨name, _, hname⟩ := List.mem_flatMap.1 htoken
    rcases List.mem_pair.1 hname with rfl | rfl <;> rfl

theorem areInner_compare {isList : Bool} {operator : Operator} {left right : List Token}
    (hleft : AreInner (left.map .token)) (hright : AreInner (right.map .token)) :
    AreInner ((compareTokens isList operator left right).map .token) := by
  cases operator <;> cases isList <;>
    simp [compareTokens, areInner_cons, areInner_append, areInner_nil, Lexeme.beginsClause, hleft,
      hright]

mutual
theorem areInner_formula : (formula : Formula) → AreInner formula.lexemes
  | .truth p => areInner_cons.2 ⟨rfl, areInner_nil⟩
  | .group connective parts => by
      have hconnective : Lexeme.beginsClause (.token connective.token) = false := by
        cases connective <;> rfl
      rw [lexemes_group]
      exact areInner_cons.2 ⟨rfl, areInner_append.2
        ⟨areInner_list hconnective (areInner_formulas parts), areInner_cons.2 ⟨rfl, areInner_nil⟩⟩⟩
  | .negation part => by
      have hpart : AreInner (part.tokens.map .token) := areInner_formula part
      simp [Formula.lexemes, Formula.tokens, areInner_cons, areInner_append, areInner_nil,
        Lexeme.beginsClause, hpart]
  | .presence access isPresent => by
      have haccess : AreInner (access.tokens.map .token) := areInner_access access
      simp [Formula.lexemes, Formula.tokens, areInner_cons, areInner_append, areInner_nil,
        Lexeme.beginsClause, haccess]
  | .compare left isList operator right => by
      have hright : AreInner (right.tokens.map .token) := by
        cases right with
        | parameter p => exact areInner_cons.2 ⟨rfl, areInner_nil⟩
        | access a => exact areInner_access a
      exact areInner_compare (areInner_access left) hright
termination_by structural formula => formula

theorem areInner_formulas : (parts : List Formula) → ∀ part ∈ parts, AreInner part.lexemes
  | [] => by simp
  | part :: parts => List.forall_mem_cons.2 ⟨areInner_formula part, areInner_formulas parts⟩
termination_by structural parts => parts
end

def IsOneClause (words : List Lexeme) : Prop :=
  ∃ first rest, words = first :: rest ∧ first.beginsClause = true ∧ AreInner rest

theorem areInner_key (key : Access × SortDirection) : AreInner (keyLexemes key) := by
  refine areInner_append.2 ⟨areInner_access key.1, ?_⟩
  cases key.2 <;> exact areInner_cons.2 ⟨rfl, areInner_nil⟩

theorem areInner_edges (edges : TraversalEdges) : AreInner edges.lexemes := by
  cases edges with
  | graph p => exact areInner_cons.2 ⟨rfl, areInner_cons.2 ⟨rfl, areInner_nil⟩⟩
  | collections ps => exact areInner_list rfl fun _ _ => areInner_cons.2 ⟨rfl, areInner_nil⟩

theorem isOneClause_statement (statement : Statement) : IsOneClause statement.lexemes := by
  cases statement with
  | forEach name p =>
      refine ⟨_, _, rfl, rfl, ?_⟩
      simp [AreInner, variableNamed, keyword, Parameter.lexeme, Lexeme.beginsClause]
  | filter formula => exact ⟨_, _, rfl, rfl, areInner_formula formula⟩
  | sort keys => exact ⟨_, _, rfl, rfl, areInner_list rfl fun key _ => areInner_key key⟩
  | limit offset count =>
      cases offset <;>
        exact ⟨_, _, rfl, rfl, by simp [AreInner, Parameter.lexeme, Lexeme.beginsClause]⟩
  | traverse vertex edge? minDepth maxDepth direction start edges =>
      refine ⟨_, _, rfl, rfl, areInner_append.2 ⟨areInner_append.2 ⟨?_, ?_⟩, areInner_edges edges⟩⟩
      · cases edge? <;> simp [AreInner, stepLexemes, variableNamed, Lexeme.beginsClause]
      · cases direction <;>
          simp [AreInner, variableNamed, keyword, Direction.keyword, Lexeme.beginsClause]

theorem isOneClause_result (result : Result) :
    IsOneClause (keyword "RETURN" :: result.lexemes) := by
  refine ⟨_, _, rfl, rfl, ?_⟩
  cases result with
  | document name => exact areInner_cons.2 ⟨rfl, areInner_nil⟩
  | row attributes =>
      refine areInner_cons.2 ⟨rfl, areInner_append.2 ⟨?_, areInner_cons.2 ⟨rfl, areInner_nil⟩⟩⟩
      refine areInner_list rfl fun entry _ => ?_
      refine areInner_cons.2 ⟨rfl, areInner_cons.2 ⟨rfl, ?_⟩⟩
      cases entry.2 with
      | access a => exact areInner_access a
      | document name => exact areInner_cons.2 ⟨rfl, areInner_nil⟩

theorem isChain_of_areInner {words : List Lexeme} (h : AreInner words) (first : Lexeme) :
    (first :: words).IsChain fun _ next => !next.beginsClause := by
  induction words generalizing first with
  | nil => simp
  | cons word words ih =>
      obtain ⟨hword, hwords⟩ := areInner_cons.1 h
      exact List.isChain_cons_cons.2 ⟨by rw [hword]; rfl, ih hwords word⟩

/-- A program is read as its statements and its result. -/
theorem clauses_lexemes (program : Program) : Aql.clauses program.lexemes = program.clauses := by
  have hclauses : ∀ clause ∈ program.clauses, IsOneClause clause := by
    intro clause hclause
    rcases List.mem_append.1 hclause with hclause | hclause
    · obtain ⟨statement, _, rfl⟩ := List.mem_map.1 hclause
      exact isOneClause_statement statement
    · rw [List.mem_singleton.1 hclause]
      exact isOneClause_result program.result
  have hflatten : program.lexemes = program.clauses.flatten := by
    simp [Program.lexemes, Program.clauses, List.flatMap_def]
  rw [hflatten]
  refine List.splitBy_flatten ?_ ?_ ?_
  · intro hnil
    obtain ⟨first, rest, heq, _⟩ := hclauses [] hnil
    cases heq
  · intro clause hclause
    obtain ⟨first, rest, rfl, _, hinner⟩ := hclauses clause hclause
    exact isChain_of_areInner hinner first
  · refine (List.pairwise_of_forall_mem_list fun clause hclause next hnext => ?_).isChain
    obtain ⟨first, rest, rfl, _⟩ := hclauses clause hclause
    obtain ⟨first', rest', rfl, hbegins, _⟩ := hclauses next hnext
    exact ⟨List.cons_ne_nil _ _, List.cons_ne_nil _ _, by simp [hbegins]⟩

end DocGraph.Aql
