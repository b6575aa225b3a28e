import DocGraph.Proofs.Aql.Compile
import DocGraph.Proofs.Aql.Spelled
import DocGraph.Proofs.Query.Resolved
/-!
# Clauses are derived from the grammar

A resolved condition compiles to one that the grammar derives, and every statement that a resolved
node becomes is written as a clause of the grammar.
-/

namespace DocGraph

namespace Aql

/-! ## Conditions -/

theorem isCollectionKey_key (p : Parameter) :
    isCollectionKey p.key = p.kind.namesCollection := by
  unfold isCollectionKey
  rw [toList_key, Parameter.word]
  cases p.kind <;> rfl

theorem kind_of_bind {kind : ParameterKind} {value : Json} {p : Parameter} {bound after : Bound}
    (hrun : (bind kind value).run bound = .ok (p, after)) : p.kind = kind := by
  obtain ⟨rfl, rfl⟩ := Prod.mk.inj (Except.ok.inj hrun)
  rfl

theorem isExpression_bound {kind : ParameterKind} {value : Json} {p : Parameter}
    {bound after : Bound} (hrun : (bind kind value).run bound = .ok (p, after))
    (hkind : kind.namesCollection = false) : IsExpression [.parameter p.key] :=
  .parameter p.key (by rw [isCollectionKey_key, kind_of_bind hrun, hkind])

theorem access_isResolved {current : String} {field : FieldRef} (h : field.IsResolved) :
    isVariable (access current field).base = true ∧ IsAttribute (access current field).tokens := by
  obtain ⟨var, hvar, hvariable⟩ := h.var
  have hbase : (access current field).base = var := by simp [access, hvar]
  rw [hbase]
  exact ⟨hvariable, .path _ field.path h.path h.names⟩


variable {current : String} {bound after : Bound}

theorem isExpression_operand {operand : Operand} {term : Term} (h : operand.IsResolved)
    (hrun : (compileOperand current operand).run bound = .ok (term, after)) :
    term.IsNamed ∧ IsExpression term.tokens := by
  cases operand with
  | literal value =>
      obtain ⟨p, middle, hbind, hpure⟩ := run_bind_eq_ok_iff.1 hrun
      obtain ⟨rfl, _⟩ := run_pure_eq_ok_iff.1 hpure
      exact ⟨trivial, isExpression_bound hbind rfl⟩
  | field field =>
      obtain ⟨rfl, _⟩ := run_pure_eq_ok_iff.1 hrun
      obtain ⟨hbase, htokens⟩ := access_isResolved h
      exact ⟨hbase, .access htokens⟩

def Formula.IsDerived (formula : Formula) : Prop :=
  formula.IsNamed ∧ IsCondition formula.tokens

def FormulasAreDerived (parts : List Formula) : Prop :=
  formulasAreNamed parts ∧ ∀ tokens ∈ formulaTokens parts, IsCondition tokens

theorem length_formulaTokens (parts : List Formula) :
    (formulaTokens parts).length = parts.length := by
  induction parts with
  | nil => rfl
  | cons part parts ih => rw [formulaTokens, List.length_cons, List.length_cons, ih]

theorem isDerived_group {connective : Connective} {parts : List Formula} {formula : Formula}
    (hparts : FormulasAreDerived parts)
    (hrun : (group connective parts).run bound = .ok (formula, after)) : formula.IsDerived := by
  obtain ⟨hnamed, hderived⟩ := hparts
  match parts with
  | [] =>
      obtain ⟨p, middle, hbind, hpure⟩ := run_bind_eq_ok_iff.1 hrun
      obtain ⟨rfl, _⟩ := run_pure_eq_ok_iff.1 hpure
      exact ⟨trivial, .expression (isExpression_bound hbind rfl)⟩
  | [part] =>
      obtain ⟨rfl, _⟩ := run_pure_eq_ok_iff.1 hrun
      exact ⟨hnamed.1, hderived _ List.mem_cons_self⟩
  | first :: second :: rest =>
      obtain ⟨rfl, _⟩ := run_pure_eq_ok_iff.1 hrun
      have htwo : 2 ≤ (formulaTokens (first :: second :: rest)).length := by
        rw [length_formulaTokens, List.length_cons, List.length_cons]
        omega
      exact ⟨hnamed, .group connective _ htwo hderived⟩

theorem isDerived_presence {field : FieldRef} (h : field.IsResolved) (isPresent : Bool) :
    (Formula.presence (access current field) isPresent).IsDerived := by
  have haccess : isVariable (access current field).base = true ∧ _ := access_isResolved h
  obtain ⟨hbase, htokens⟩ := haccess
  refine ⟨hbase, ?_⟩
  cases isPresent with
  | true =>
      have hcompared := IsCondition.comparison (.access htokens)
        (by decide : [.relation .unequal] ∈ comparisons) .null
      simpa [Formula.tokens] using hcompared
  | false =>
      have hcompared := IsCondition.comparison (.access htokens)
        (by decide : [.relation .equal] ∈ comparisons) .null
      simpa [Formula.tokens] using hcompared

mutual
/-- A resolved condition compiles to one that the grammar derives. -/
theorem isDerived_condition (current : String) : (condition : Condition) → condition.IsResolved →
    ∀ {formula : Formula} {bound after : Bound},
      (compileCondition current condition).run bound = .ok (formula, after) → formula.IsDerived
  | .all parts, h, _, _, _, hrun => by
      obtain ⟨formulas, middle, hparts, hgroup⟩ := run_bind_eq_ok_iff.1 hrun
      exact isDerived_group (isDerived_parts current parts h hparts) hgroup
  | .any parts, h, _, _, _, hrun => by
      obtain ⟨formulas, middle, hparts, hgroup⟩ := run_bind_eq_ok_iff.1 hrun
      exact isDerived_group (isDerived_parts current parts h hparts) hgroup
  | .negation part, h, _, _, _, hrun => by
      obtain ⟨inner, middle, hpart, hpure⟩ := run_bind_eq_ok_iff.1 hrun
      obtain ⟨rfl, _⟩ := run_pure_eq_ok_iff.1 hpure
      obtain ⟨hnamed, hderived⟩ := isDerived_condition current part h hpart
      exact ⟨hnamed, .negation hderived⟩
  | .presence _ isPresent, h, _, _, _, hrun => by
      obtain ⟨rfl, _⟩ := run_pure_eq_ok_iff.1 hrun
      exact isDerived_presence h isPresent
  | .compare field operator operand, h, _, _, _, hrun => by
      unfold compileCondition at hrun
      by_cases hlacks : lacksCandidates operator operand = true
      · rw [if_pos hlacks] at hrun
        cases hrun
      · rw [if_neg hlacks] at hrun
        obtain ⟨term, middle, hterm, hpure⟩ := run_bind_eq_ok_iff.1 hrun
        obtain ⟨rfl, _⟩ := run_pure_eq_ok_iff.1 hpure
        obtain ⟨hbase, hleft⟩ := access_isResolved h.1
        obtain ⟨hnamed, hright⟩ := isExpression_operand h.2 hterm
        exact ⟨⟨hbase, hnamed⟩, isCondition_compare _ operator (.access hleft) hright⟩
termination_by structural condition => condition

theorem isDerived_parts (current : String) : (parts : List Condition) →
    Condition.partsAreResolved parts → ∀ {formulas : List Formula} {bound after : Bound},
      (compileConditions current parts).run bound = .ok (formulas, after) →
      FormulasAreDerived formulas
  | [], _, _, _, _, hrun => by
      obtain ⟨rfl, _⟩ := run_pure_eq_ok_iff.1 hrun
      exact ⟨trivial, by simp [formulaTokens]⟩
  | part :: parts, h, _, _, _, hrun => by
      obtain ⟨formula, middle, hformula, hrun⟩ := run_bind_eq_ok_iff.1 hrun
      obtain ⟨formulas, last, hformulas, hpure⟩ := run_bind_eq_ok_iff.1 hrun
      obtain ⟨rfl, _⟩ := run_pure_eq_ok_iff.1 hpure
      obtain ⟨hnamed, hderived⟩ := isDerived_condition current part h.1 hformula
      obtain ⟨hnamed', hderived'⟩ := isDerived_parts current parts h.2 hformulas
      exact ⟨⟨hnamed, hnamed'⟩, List.forall_mem_cons.2 ⟨hderived, hderived'⟩⟩
termination_by structural parts => parts
end

/-! ## Clauses -/

theorem isCollection_lexeme {p : Parameter} (h : p.kind.namesCollection = true) :
    IsCollection [p.lexeme] :=
  .parameter p.key (by rw [isCollectionKey_key, h])

theorem isValue_lexeme {p : Parameter} (h : p.kind.namesCollection = false) :
    IsValue [p.lexeme] :=
  .parameter p.key (by rw [isCollectionKey_key, h])

theorem writes_loop {name : String} {p : Parameter} (hname : isVariable name = true)
    (hp : p.kind = .collection) : Writes IsLoop (Statement.forEach name p).text := by
  have hcollection : IsCollection [p.lexeme] := isCollection_lexeme (by rw [hp]; rfl)
  exact ⟨_, lexemes?_forEach p hname, .over name hcollection⟩

theorem writes_filter {formula : Formula} (h : formula.IsDerived) :
    Writes (IsClause "Filter") (Statement.filter formula).text :=
  ⟨_, lexemes?_filter h.1, .filter h.2⟩

theorem writes_limit {p : Parameter} (hp : p.kind = .count) :
    Writes (IsClause "Limit") (Statement.limit none p).text := by
  have hcount : IsValue [p.lexeme] := isValue_lexeme (by rw [hp]; rfl)
  exact ⟨_, lexemes?_limit none p, .limit hcount⟩

theorem writes_slice {p q : Parameter} (hp : p.kind = .offset) (hq : q.kind = .count) :
    Writes (IsClause "Limit") (Statement.limit (some p) q).text := by
  have hoffset : IsValue [p.lexeme] := isValue_lexeme (by rw [hp]; rfl)
  have hcount : IsValue [q.lexeme] := isValue_lexeme (by rw [hq]; rfl)
  exact ⟨_, lexemes?_limit (some p) q, .slice hoffset hcount⟩

theorem isKey_lexemes {key : Access} (htokens : IsAttribute key.tokens)
    (direction : SortDirection) : IsKey (keyLexemes (key, direction)) :=
  .by _ htokens (by cases direction <;> simp [directionText])

theorem writes_sort {keys : List SortKey} (hkeys : keys ≠ [])
    (h : ∀ key ∈ keys, key.field.IsResolved) :
    Writes (IsClause "Sort")
      (Statement.sort (keys.map fun key => (access current key.field, key.direction))).text := by
  refine ⟨_, lexemes?_sort ?_, .sort _ (by simpa using hkeys) ?_⟩
  · intro sorted hsorted
    obtain ⟨key, hkey, rfl⟩ := List.mem_map.1 hsorted
    exact (access_isResolved (h key hkey)).1
  · intro words hwords
    rw [List.map_map] at hwords
    obtain ⟨key, hkey, rfl⟩ := List.mem_map.1 hwords
    exact isKey_lexemes (access_isResolved (h key hkey)).2 key.direction

/-! ## Traversals -/

theorem kind_of_mapM_bind {names : List String} {ps : List Parameter}
    (hrun : (names.mapM fun name => bind .edges (.string name)).run bound = .ok (ps, after)) :
    ps.length = names.length ∧ ∀ p ∈ ps, p.kind = .edges := by
  induction names generalizing bound after ps with
  | nil =>
      obtain ⟨rfl, _⟩ := run_pure_eq_ok_iff.1 hrun
      simp
  | cons name names ih =>
      rw [List.mapM_cons] at hrun
      obtain ⟨p, middle, hbind, hrun⟩ := run_bind_eq_ok_iff.1 hrun
      obtain ⟨rest, last, hrest, hpure⟩ := run_bind_eq_ok_iff.1 hrun
      obtain ⟨rfl, _⟩ := run_pure_eq_ok_iff.1 hpure
      obtain ⟨hlength, hkinds⟩ := ih hrest
      exact ⟨by simp [hlength], List.forall_mem_cons.2 ⟨kind_of_bind hbind, hkinds⟩⟩

theorem isEdges_compileEdges {target : TraversalTarget} {edges : TraversalEdges}
    (hrun : (compileEdges target).run bound = .ok (edges, after)) : IsEdges edges.lexemes := by
  cases target with
  | graph name =>
      obtain ⟨p, middle, hbind, hpure⟩ := run_bind_eq_ok_iff.1 hrun
      obtain ⟨rfl, _⟩ := run_pure_eq_ok_iff.1 hpure
      exact .graph (isValue_lexeme (by rw [kind_of_bind hbind]; rfl))
  | edgeCollections names =>
      simp only [compileEdges] at hrun
      by_cases hempty : names.isEmpty = true
      · rw [if_pos hempty] at hrun
        cases hrun
      · rw [if_neg hempty] at hrun
        obtain ⟨ps, middle, hps, hpure⟩ := run_bind_eq_ok_iff.1 hrun
        obtain ⟨rfl, _⟩ := run_pure_eq_ok_iff.1 hpure
        obtain ⟨hlength, hkinds⟩ := kind_of_mapM_bind hps
        refine .collections _ ?_ ?_
        · rintro hnone
          obtain rfl := List.map_eq_nil_iff.1 hnone
          rw [List.length_eq_zero_iff.1 hlength.symm] at hempty
          exact hempty rfl
        · intro words hwords
          obtain ⟨p, hp, rfl⟩ := List.mem_map.1 hwords
          exact isCollection_lexeme (by rw [hkinds p hp]; rfl)

theorem isStepVariables_lexemes (vertex : String) (edge? : Option String) :
    IsStepVariables (stepLexemes vertex edge?) := by
  cases edge? with
  | none => exact .vertex vertex
  | some edge => exact .vertexAndEdge vertex edge

theorem writes_traverse {vertex start : String} {edge? : Option String} {minDepth maxDepth : Nat}
    {edges : TraversalEdges} (direction : Direction) (hvertex : isVariable vertex = true)
    (hedge : ∀ edge, edge? = some edge → isVariable edge = true)
    (hdepth : minDepth ≤ maxDepth) (hstart : isVariable start = true)
    (hedges : IsEdges edges.lexemes) :
    Writes (IsClause "Traverse")
      (Statement.traverse vertex edge? minDepth maxDepth direction start edges).text :=
  ⟨_, lexemes?_traverse minDepth maxDepth direction edges hvertex hedge hstart,
    .traverse minDepth maxDepth direction.keyword start (isStepVariables_lexemes vertex edge?)
      hdepth (by cases direction <;> decide) hedges⟩

end Aql

end DocGraph
