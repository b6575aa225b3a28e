import DocGraph.Proofs.Aql.Meaning
/-!
# Filters keep their meaning

The filter that a call adds stands in the text of every query that is built on it, as a statement
of its own.  Read by the rules of the language, its condition is as true as the condition that
the caller gave, however the comparisons turn out.
-/

namespace DocGraph

namespace Aql

/-! ## Where a filter stands -/

theorem length_compileNode {current : String} {node : QueryNode} {bound after : Bound}
    {statements : List Statement} (hplain : ∀ attributes row, node ≠ .project attributes row)
    (hrun : (compileNode current node).run bound = .ok (statements, after)) :
    statements.length = 1 := by
  cases node with
  | filter condition =>
      obtain ⟨formula, middle, _, hpure⟩ := run_bind_eq_ok_iff.1 hrun
      obtain ⟨rfl, _⟩ := run_pure_eq_ok_iff.1 hpure
      rfl
  | sort keys =>
      obtain ⟨rfl, _⟩ := run_pure_eq_ok_iff.1 hrun
      rfl
  | limit offset number =>
      cases offset with
      | none =>
          obtain ⟨counted, middle, _, hpure⟩ := run_bind_eq_ok_iff.1 hrun
          obtain ⟨rfl, _⟩ := run_pure_eq_ok_iff.1 hpure
          rfl
      | some offset =>
          obtain ⟨skipped, middle, _, hrun⟩ := run_bind_eq_ok_iff.1 hrun
          obtain ⟨counted, last, _, hpure⟩ := run_bind_eq_ok_iff.1 hrun
          obtain ⟨rfl, _⟩ := run_pure_eq_ok_iff.1 hpure
          rfl
  | project attributes row => exact absurd rfl (hplain attributes row)
  | traverse traversal =>
      obtain ⟨statement, middle, _, hpure⟩ := run_bind_eq_ok_iff.1 hrun
      obtain ⟨rfl, _⟩ := run_pure_eq_ok_iff.1 hpure
      rfl
  | join binding =>
      obtain ⟨collection, middle, _, hpure⟩ := run_bind_eq_ok_iff.1 hrun
      obtain ⟨rfl, _⟩ := run_pure_eq_ok_iff.1 hpure
      rfl

theorem compileNodes_filter {current : String} {before rest : List QueryNode}
    {condition : Condition} {bound after : Bound} {program : Program}
    (hrun : (compileNodes current (before ++ .filter condition :: rest)).run bound
      = .ok (program, after)) :
    ∃ current' middle formula last,
      (compileCondition current' condition).run middle = .ok (formula, last) ∧ last <+: after ∧
      program.statements[before.length]? = some (.filter formula) := by
  induction before generalizing current bound program with
  | nil =>
      rw [List.nil_append, compileNodes_cons current rest (by simp)] at hrun
      obtain ⟨statements, middle, hnode, hrun⟩ := run_bind_eq_ok_iff.1 hrun
      obtain ⟨tail, last, htail, hpure⟩ := run_bind_eq_ok_iff.1 hrun
      obtain ⟨rfl, rfl⟩ := run_pure_eq_ok_iff.1 hpure
      obtain ⟨formula, inner, hcondition, hpure⟩ := run_bind_eq_ok_iff.1 hnode
      obtain ⟨rfl, rfl⟩ := run_pure_eq_ok_iff.1 hpure
      have hgrown := stepwise_grows.compileNodes_related _ rest _ _ _ htail
      exact ⟨current, bound, formula, inner, hcondition, hgrown.1, rfl⟩
  | cons node before ih =>
      rw [List.cons_append] at hrun
      -- Nothing compiles behind a projection; any other node becomes one statement.
      by_cases hproject : ∃ attributes row, node = .project attributes row
      · obtain ⟨attributes, row, rfl⟩ := hproject
        rw [compileNodes_project] at hrun
        cases before <;> cases hrun
      · have hplain : ∀ attributes row, node ≠ .project attributes row :=
          fun attributes row h => hproject ⟨attributes, row, h⟩
        rw [compileNodes_cons current _ hplain] at hrun
        obtain ⟨statements, middle, hnode, hrun⟩ := run_bind_eq_ok_iff.1 hrun
        obtain ⟨tail, last, htail, hpure⟩ := run_bind_eq_ok_iff.1 hrun
        obtain ⟨rfl, rfl⟩ := run_pure_eq_ok_iff.1 hpure
        obtain ⟨current', start, formula, inner, hcondition, hgrown, hstatement⟩ := ih htail
        have hlength := length_compileNode hplain hnode
        refine ⟨current', start, formula, inner, hcondition, hgrown, ?_⟩
        rw [List.length_cons, List.getElem?_append_right (by omega), hlength]
        exact hstatement

end Aql

namespace Query

/-- The condition of a filter, read from the text, means what the condition given to the filter
means; and a chain of conditions means what its links say one after the other. -/
theorem filter_keeps_meaning {start : Start} {calls more : List Call}
    {query filtered final : Query} {condition : Condition} {compiled : CompiledQuery}
    (hquery : build start calls = .ok query) (hfiltered : query.filter condition = .ok filtered)
    (hfinal : more.foldlM Call.apply filtered = .ok final)
    (hcompiled : final.compile = .ok compiled) :
    ∃ program bound formula e,
      (Aql.compileQuery final).run [] = .ok (program, bound) ∧ compiled.text = program.text ∧
      program.statements[query.nodes.length + 1]? = some (.filter formula) ∧
      Aql.read? compiled.bindVars formula.text = some e ∧
      (∀ assign, e.holds assign = condition.holds query assign) ∧
      e.atoms = condition.atoms query ∧
      ∀ (first : Condition) links, condition = first.chain links → ∀ assign,
        e.holds assign
          = Condition.chainTruth query assign (first.holds query assign) links := by
  obtain ⟨program, bound, hrun, htext, hvars⟩ := compile_eq_ok_iff.1 hcompiled
  obtain ⟨resolved, hresolved, hpush⟩ := Outcome.bind_eq_ok_iff.1 hfiltered
  obtain rfl := Except.ok.inj hpush
  obtain ⟨nodes, rfl, _⟩ := appends_foldlM hfinal
  have hnodes : ((query.push (.filter resolved)).appendNodes nodes).nodes
      = query.nodes ++ .filter resolved :: nodes := by
    simp [push, appendNodes]
  have hnumbered := (Aql.stepwise_grows.compileQuery_related _ [] _ _ hrun).2 Aql.numbered_nil
  have hsends : Aql.Sends compiled.bindVars bound := by
    intro entry hentry
    rw [hvars]
    exact Aql.get?_sent hnumbered hentry
  obtain ⟨collection, middle, _, hbody⟩ := Aql.run_bind_eq_ok_iff.1 hrun
  obtain ⟨tail, last, htail, hpure⟩ := Aql.run_bind_eq_ok_iff.1 hbody
  obtain ⟨rfl, rfl⟩ := Aql.run_pure_eq_ok_iff.1 hpure
  rw [hnodes] at htail
  obtain ⟨current, inner, formula, after, hcondition, hgrown, hstatement⟩ :=
    Aql.compileNodes_filter htail
  obtain ⟨hformula, e, he, hholds, hatoms⟩ := Aql.says_condition (isNamed_build hquery) current
    condition hresolved hcondition (hsends.of_grown hgrown)
  refine ⟨_, last, formula, e, hrun, htext, hstatement, Aql.read?_text hformula he, hholds,
    hatoms, ?_⟩
  rintro first links rfl assign
  exact (hholds assign).trans (Condition.holds_chain first links)

def fleet : Start :=
  .documents ⟨"ships", .document, [⟨"owner", .primitive .string, true, none, false, none⟩,
    ⟨"flags", .listOf (.primitive .string), false, none, false, none⟩], true, []⟩

/-- A chain with an empty group, a group of one and the name of an attribute that needs quoting. -/
def fleetCondition : Condition :=
  Condition.chain (.compare (.ofDotted "owner") .endsWith (.literal (.string "son")))
    [(.or, .negation (.all [.compare (.ofDotted "flags") .notContains (.literal .null),
      .compare (.ofPath ["a`b"]) .notContains (.field (.ofAlias "doc" "owner"))])),
    (.and, .any []),
    (.and, .all [.presence (.ofDotted "flags") true])]

theorem filter_keeps_meaning_fleet :
    ∃ query filtered final compiled,
      build fleet [.limit 9] = .ok query ∧ query.filter fleetCondition = .ok filtered ∧
      [Call.join "port" ⟨"ports", .document, [], true, []⟩].foldlM Call.apply filtered
        = .ok final ∧
      final.compile = .ok compiled ∧
      ∃ program bound formula e,
        (Aql.compileQuery final).run [] = .ok (program, bound) ∧ compiled.text = program.text ∧
        program.statements[query.nodes.length + 1]? = some (.filter formula) ∧
        Aql.read? compiled.bindVars formula.text = some e ∧
        (∀ assign, e.holds assign = fleetCondition.holds query assign) ∧
        e.atoms = fleetCondition.atoms query := by
  have hall : ((((build fleet [.limit 9]).bind fun query => query.filter fleetCondition).bind
      fun filtered => [Call.join "port" ⟨"ports", .document, [], true, []⟩].foldlM Call.apply
        filtered).bind compile).isOk = true := by
    decide +kernel
  obtain ⟨compiled, hall⟩ := Outcome.exists_of_isOk hall
  obtain ⟨final, hall, hcompiled⟩ := Outcome.bind_eq_ok_iff.1 hall
  obtain ⟨filtered, hall, hfinal⟩ := Outcome.bind_eq_ok_iff.1 hall
  obtain ⟨query, hquery, hfiltered⟩ := Outcome.bind_eq_ok_iff.1 hall
  obtain ⟨program, bound, formula, e, hrun, htext, hstatement, hread, hholds, hatoms, _⟩ :=
    filter_keeps_meaning hquery hfiltered hfinal hcompiled
  exact ⟨query, filtered, final, compiled, hquery, hfiltered, hfinal, hcompiled, program, bound,
    formula, e, hrun, htext, hstatement, hread, hholds, hatoms⟩

end Query

end DocGraph
