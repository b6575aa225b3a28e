import DocGraph.Proofs.Aql.Bound
import DocGraph.Proofs.Query.Meaning
/-!
# Compiling keeps the meaning of conditions

What a resolved condition compiles to is read back as a condition with the same truth and the
same comparisons, whatever surrounds it.  The values of its parameters are found under their
names because later steps bind other parameters.
-/

namespace DocGraph.Aql

/-! ## Joined conditions -/

def Connective.truth : Connective → List Bool → Bool
  | and, truths => truths.all id
  | or, truths => truths.any id

theorem holds_foldl_join (assign : Expression → Bool) (connective : Connective)
    (first : Expression) (rest : List Expression) :
    (rest.foldl connective.join first).holds assign
      = connective.truth ((first :: rest).map fun e => e.holds assign) := by
  induction rest generalizing first with
  | nil => cases connective <;> simp [Connective.truth]
  | cons next rest ih =>
      rw [List.foldl_cons, ih]
      cases connective with
      | and => simp [Connective.truth, Connective.join, Expression.holds, Bool.and_assoc]
      | or => simp [Connective.truth, Connective.join, Expression.holds, Bool.or_assoc]

theorem atoms_foldl_join (connective : Connective) (first : Expression) (rest : List Expression) :
    (rest.foldl connective.join first).atoms = (first :: rest).flatMap Expression.atoms := by
  induction rest generalizing first with
  | nil => simp
  | cons next rest ih =>
      rw [List.foldl_cons, ih]
      cases connective <;> simp [Connective.join, Expression.atoms]

/-! ## Conditions -/

/-- A formula is read back as a condition with the given truth and comparisons. -/
def Formula.Says (vars : Json.Members) (formula : Formula)
    (truth : (Expression → Bool) → Bool) (atoms : List Expression) : Prop :=
  formula.IsNamed ∧ ∃ e, formula.expression? vars = some e ∧
    (∀ assign, e.holds assign = truth assign) ∧ e.atoms = atoms

def SayParts (vars : Json.Members) (parts : List Formula)
    (truths : (Expression → Bool) → List Bool) (atoms : List Expression) : Prop :=
  formulasAreNamed parts ∧ ∃ read, formulaExpressions? vars parts = some read ∧
    (∀ assign, read.map (fun e => e.holds assign) = truths assign) ∧
    read.flatMap Expression.atoms = atoms

def Sends (vars : Json.Members) (bound : Bound) : Prop :=
  ∀ entry ∈ bound, Assoc.get? entry.1.key vars = some entry.2

variable {vars : Json.Members} {bound after : Bound} {formula : Formula}

theorem Sends.of_grown (h : Sends vars after) (hgrown : bound <+: after) : Sends vars bound :=
  fun entry hentry => h entry (hgrown.subset hentry)

theorem expression?_bound {kind : ParameterKind} {value : Json} {p : Parameter}
    (hrun : (bind kind value).run bound = .ok (p, after)) (h : Sends vars after) :
    Assoc.get? p.key vars = some value := by
  obtain ⟨rfl, rfl⟩ := Prod.mk.inj (Except.ok.inj hrun)
  exact h (_, value) (List.mem_append_right _ (List.mem_singleton.2 rfl))

theorem says_group {connective : Connective} {parts : List Formula}
    {truths : (Expression → Bool) → List Bool} {atoms : List Expression}
    (hrun : (group connective parts).run bound = .ok (formula, after)) (h : Sends vars after)
    (hparts : SayParts vars parts truths atoms) :
    formula.Says vars (fun assign => connective.truth (truths assign)) atoms := by
  obtain ⟨hnamed, read, hread, htruths, rfl⟩ := hparts
  match parts with
  | [] =>
      obtain ⟨p, middle, hbind, hpure⟩ := run_bind_eq_ok_iff.1 hrun
      obtain ⟨rfl, rfl⟩ := run_pure_eq_ok_iff.1 hpure
      obtain rfl := Option.some.inj hread
      refine ⟨trivial, .value (.bool (connective == .and)), ?_, ?_, rfl⟩
      · simp [Formula.expression?, expression?_bound hbind h]
      · intro assign
        refine Eq.trans ?_ (congrArg connective.truth (htruths assign))
        cases connective <;> rfl
  | [part] =>
      obtain ⟨rfl, rfl⟩ := run_pure_eq_ok_iff.1 hrun
      obtain ⟨e, others, he, hothers, rfl⟩ := formulaExpressions?_cons_eq_some_iff.1 hread
      obtain rfl := Option.some.inj hothers
      refine ⟨hnamed.1, e, he, ?_, by simp⟩
      intro assign
      refine Eq.trans ?_ (congrArg connective.truth (htruths assign))
      cases connective <;> simp [Connective.truth]
  | first :: second :: rest =>
      obtain ⟨rfl, rfl⟩ := run_pure_eq_ok_iff.1 hrun
      obtain ⟨e, others, he, hothers, rfl⟩ := formulaExpressions?_cons_eq_some_iff.1 hread
      refine ⟨hnamed, others.foldl connective.join e, ?_, ?_, ?_⟩
      · simp [Formula.expression?, hread, joinAll?]
      · intro assign
        refine Eq.trans ?_ (congrArg connective.truth (htruths assign))
        exact holds_foldl_join assign connective e others
      · exact atoms_foldl_join connective e others

variable {query : Query} {current : String}

theorem access_resolved {field resolved : FieldRef}
    (h : query.resolveField field = .ok resolved) :
    access current resolved = ⟨query.varOf field, field.path⟩ := by
  obtain ⟨_, rfl⟩ := Query.resolveField_eq_ok h
  rfl

theorem expression?_operand (hquery : query.IsNamed) {operand resolved : Operand} {term : Term}
    (hresolve : query.resolveOperand operand = .ok resolved)
    (hrun : (compileOperand current resolved).run bound = .ok (term, after))
    (h : Sends vars after) :
    term.IsNamed ∧ term.expression? vars = some (query.operandOf operand) := by
  cases operand with
  | literal value =>
      obtain rfl := Except.ok.inj hresolve
      obtain ⟨p, middle, hbind, hpure⟩ := run_bind_eq_ok_iff.1 hrun
      obtain ⟨rfl, rfl⟩ := run_pure_eq_ok_iff.1 hpure
      refine ⟨trivial, ?_⟩
      rw [Term.expression?, expression?_bound hbind h]
      rfl
  | field field =>
      obtain ⟨found, hfound, hresolve⟩ := Outcome.bind_eq_ok_iff.1 hresolve
      obtain rfl := Except.ok.inj hresolve
      obtain ⟨rfl, rfl⟩ := run_pure_eq_ok_iff.1 hrun
      rw [access_resolved hfound]
      exact ⟨hquery.varOf hfound, rfl⟩

theorem says_compare (hquery : query.IsNamed) {field found : FieldRef} {operator : Operator}
    {operand resolved : Operand} (hfield : query.resolveField field = .ok found)
    (hoperand : query.resolveOperand operand = .ok resolved)
    (hrun : (compileCondition current (.compare found operator resolved)).run bound
      = .ok (formula, after)) (h : Sends vars after) :
    formula.Says vars (fun assign => (query.comparisonOf field operator operand).holds assign)
      (query.comparisonOf field operator operand).atoms := by
  unfold compileCondition at hrun
  by_cases hlacks : lacksCandidates operator resolved = true
  · rw [if_pos hlacks] at hrun
    cases hrun
  · rw [if_neg hlacks] at hrun
    obtain ⟨term, middle, hterm, hpure⟩ := run_bind_eq_ok_iff.1 hrun
    obtain ⟨rfl, rfl⟩ := run_pure_eq_ok_iff.1 hpure
    obtain ⟨hnamed, hread⟩ := expression?_operand hquery hoperand hterm h
    have hlist : found.isList = (query.declaredType? field).any FieldType.isList := by
      obtain ⟨_, rfl⟩ := Query.resolveField_eq_ok hfield
      cases hdeclared : query.declaredType? field <;> simp [FieldRef.isList]
    rw [access_resolved hfield, hlist]
    refine ⟨⟨hquery.varOf hfield, hnamed⟩, query.comparisonOf field operator operand, ?_,
      fun _ => rfl, rfl⟩
    rw [Formula.expression?, hread]
    rfl

mutual
/-- What a resolved condition compiles to says what the condition means. -/
theorem says_condition (hquery : query.IsNamed) (current : String) : (condition : Condition) →
    ∀ {resolved : Condition} {formula : Formula} {bound after : Bound},
      query.resolve condition = .ok resolved →
      (compileCondition current resolved).run bound = .ok (formula, after) → Sends vars after →
      formula.Says vars (fun assign => condition.holds query assign) (condition.atoms query)
  | .all parts, _, _, _, _, hresolve, hrun, h => by
      obtain ⟨done, hdone, hresolve⟩ := Outcome.bind_eq_ok_iff.1 hresolve
      obtain rfl := Except.ok.inj hresolve
      obtain ⟨formulas, middle, hparts, hgroup⟩ := run_bind_eq_ok_iff.1 hrun
      have hgrown := stepwise_grows.group_related .and formulas middle _ _ hgroup
      exact says_group hgroup h (says_parts hquery current parts hdone hparts (h.of_grown hgrown.1))
  | .any parts, _, _, _, _, hresolve, hrun, h => by
      obtain ⟨done, hdone, hresolve⟩ := Outcome.bind_eq_ok_iff.1 hresolve
      obtain rfl := Except.ok.inj hresolve
      obtain ⟨formulas, middle, hparts, hgroup⟩ := run_bind_eq_ok_iff.1 hrun
      have hgrown := stepwise_grows.group_related .or formulas middle _ _ hgroup
      exact says_group hgroup h (says_parts hquery current parts hdone hparts (h.of_grown hgrown.1))
  | .negation part, _, _, _, _, hresolve, hrun, h => by
      obtain ⟨done, hdone, hresolve⟩ := Outcome.bind_eq_ok_iff.1 hresolve
      obtain rfl := Except.ok.inj hresolve
      obtain ⟨inner, middle, hpart, hpure⟩ := run_bind_eq_ok_iff.1 hrun
      obtain ⟨rfl, rfl⟩ := run_pure_eq_ok_iff.1 hpure
      obtain ⟨hnamed, e, he, hholds, hatoms⟩ := says_condition hquery current part hdone hpart h
      refine ⟨hnamed, .negation e, ?_, ?_, hatoms⟩
      · simp [Formula.expression?, he]
      · intro assign
        simp [Expression.holds, Condition.holds, hholds]
  | .presence field isPresent, _, _, _, _, hresolve, hrun, h => by
      obtain ⟨found, hfound, hresolve⟩ := Outcome.bind_eq_ok_iff.1 hresolve
      obtain rfl := Except.ok.inj hresolve
      obtain ⟨rfl, rfl⟩ := run_pure_eq_ok_iff.1 hrun
      rw [access_resolved hfound]
      exact ⟨hquery.varOf hfound, query.presenceOf field isPresent, rfl, fun _ => rfl, rfl⟩
  | .compare field operator operand, _, _, _, _, hresolve, hrun, h => by
      obtain ⟨right, hright, hresolve⟩ := Outcome.bind_eq_ok_iff.1 hresolve
      obtain ⟨found, hfound, hresolve⟩ := Outcome.bind_eq_ok_iff.1 hresolve
      obtain rfl := Except.ok.inj hresolve
      exact says_compare hquery hfound hright hrun h
termination_by structural condition => condition

theorem says_parts (hquery : query.IsNamed) (current : String) : (parts : List Condition) →
    ∀ {resolved : List Condition} {formulas : List Formula} {bound after : Bound},
      query.resolveParts parts = .ok resolved →
      (compileConditions current resolved).run bound = .ok (formulas, after) →
      Sends vars after →
      SayParts vars formulas (fun assign => Condition.truths query assign parts)
        (Condition.atomsOfParts query parts)
  | [], _, _, _, _, hresolve, hrun, _ => by
      obtain rfl := Except.ok.inj hresolve
      obtain ⟨rfl, rfl⟩ := run_pure_eq_ok_iff.1 hrun
      exact ⟨trivial, [], rfl, fun _ => rfl, rfl⟩
  | part :: parts, _, _, _, _, hresolve, hrun, h => by
      obtain ⟨first, hfirst, hresolve⟩ := Outcome.bind_eq_ok_iff.1 hresolve
      obtain ⟨rest, hrest, hresolve⟩ := Outcome.bind_eq_ok_iff.1 hresolve
      obtain rfl := Except.ok.inj hresolve
      obtain ⟨formula, middle, hformula, hrun⟩ := run_bind_eq_ok_iff.1 hrun
      obtain ⟨formulas, last, hformulas, hpure⟩ := run_bind_eq_ok_iff.1 hrun
      obtain ⟨rfl, rfl⟩ := run_pure_eq_ok_iff.1 hpure
      -- The parts behind only add parameters, so those of this part are still sent.
      have hgrown := stepwise_grows.compileConditions_related current rest middle formulas last
        hformulas
      obtain ⟨hnamed, e, he, hholds, hatoms⟩ :=
        says_condition hquery current part hfirst hformula (h.of_grown hgrown.1)
      obtain ⟨hnamed', read, hread, hholds', hatoms'⟩ :=
        says_parts hquery current parts hrest hformulas h
      refine ⟨⟨hnamed, hnamed'⟩, e :: read, ?_, ?_, ?_⟩
      · exact formulaExpressions?_cons_eq_some_iff.2 ⟨e, read, he, hread, rfl⟩
      · intro assign
        simp only [List.map_cons, hholds, hholds', Condition.truths]
      · rw [List.flatMap_cons, hatoms, hatoms', Condition.atomsOfParts]
termination_by structural parts => parts
end

end DocGraph.Aql
