import DocGraph.Proofs.Aql.Meaning
import DocGraph.Proofs.Aql.References
/-!
# Extending a query keeps what was built

Nodes are compiled from the first one on, and what a node becomes depends on the nodes before it
only.  So the text of a query, up to what it returns, begins the text of every query that is built
on it, and the parameters in it keep their values.
-/

namespace DocGraph

namespace Aql

variable {current : String} {nodes more : List QueryNode} {bound after : Bound} {program : Program}

/-! ## Runs of fewer nodes -/

theorem NodesRun.grows (hrun : NodesRun current nodes bound program after) :
    bound <+: after ∧ (Numbered bound → Numbered after) :=
  stepwise_grows.compileNodes_related current nodes bound program after
    (compileNodes_eq_ok_iff.2 hrun)

/-- The first nodes of a run can be run alone: they give the first statements. -/
theorem NodesRun.of_append (hrun : NodesRun current (nodes ++ more) bound program after) :
    ∃ first middle, NodesRun current nodes bound first middle ∧
      first.statements <+: program.statements ∧ middle <+: after := by
  induction nodes generalizing current bound program with
  | nil =>
      exact ⟨⟨[], .document current⟩, bound, .document current bound, List.nil_prefix, hrun.grows.1⟩
  | cons node nodes ih =>
      generalize hall : node :: nodes ++ more = all at hrun
      cases hrun with
      | document => cases hall
      | row =>
          obtain ⟨rfl, hnone⟩ := List.cons.inj hall
          obtain ⟨rfl, -⟩ := List.append_eq_nil_iff.1 hnone
          exact ⟨_, _, .row _ _ _ _, List.prefix_refl _, List.prefix_refl _⟩
      | @node _ first _ statement _ _ middle _ hnode hrest =>
          obtain ⟨rfl, rfl⟩ := List.cons.inj hall
          obtain ⟨program', last, hrun', hstatements, hbound⟩ := ih hrest
          exact ⟨_, last, .node hnode hrun', List.cons_prefix_cons.2 ⟨rfl, hstatements⟩, hbound⟩

/-- The clause of a node stands where the node does. -/
theorem NodesRun.reads_at (hrun : NodesRun current nodes bound program after) {i : Nat}
    {node : QueryNode} (hnode : nodes[i]? = some node)
    (hplain : ∀ attributes row, node ≠ .project attributes row) :
    ∃ current' clause, program.clauses[i]? = some clause ∧
      ∀ r, r ∈ usedIn clause ↔ r ∈ accessesOf current' node := by
  induction hrun generalizing i with
  | document current bound => cases hnode
  | row current attributes row bound =>
      cases i with
      | zero => exact absurd (Option.some.inj hnode).symm (hplain attributes row)
      | succ i => cases hnode
  | @node current first rest statement program bound middle after hfirst hrest ih =>
      cases i with
      | zero =>
          obtain rfl := Option.some.inj hnode
          exact ⟨current, statement.lexemes, rfl, hfirst.reads.2⟩
      | succ i => exact ih hnode

/-! ## Texts and values -/

theorem return_notMem_statement (statement : Statement) :
    keyword "RETURN" ∉ statement.lexemes := by
  obtain ⟨first, rest, hlexemes, _, hinner⟩ := isOneClause_statement statement
  have hhead : statement.lexemes.head? ≠ some (keyword "RETURN") := by
    cases statement with
    | limit offset count => cases offset <;> simp [Statement.lexemes, keyword]
    | _ => simp [Statement.lexemes, keyword]
  rw [hlexemes] at hhead ⊢
  intro hmem
  rcases List.mem_cons.1 hmem with rfl | hmem
  · exact hhead rfl
  · cases hinner _ hmem

theorem get?_sent_mono {larger : Bound} (hnumbered : Numbered larger) (hbefore : bound <+: larger)
    {key : String} {value : Json} (h : Assoc.get? key (sent bound) = some value) :
    Assoc.get? key (sent larger) = some value := by
  have hmem := Assoc.mem_of_mem_ofList (Assoc.mem_of_get?_eq_some h)
  obtain ⟨entry, hentry, heq⟩ := List.mem_map.1 hmem
  obtain ⟨rfl, rfl⟩ := Prod.mk.inj heq
  exact get?_sent hnumbered (hbefore.subset hentry)

theorem statementsText_append (statements others : List Statement) :
    statementsText (statements ++ others)
      = statementsText statements ++ statementsText others := by
  simp [statementsText]

/-! ## Fields -/

theorem accesses_resolved {query : Query} {fields resolved : List FieldRef}
    (h : List.Forall₂ query.Resolves fields resolved) :
    resolved.map (access current)
      = fields.map fun field => ⟨field.var?.getD query.current.var, field.path⟩ := by
  induction h with
  | nil => rfl
  | cons hfirst _ ih => rw [List.map_cons, List.map_cons, ih, access_resolved hfirst, Query.varOf]

end Aql

namespace Query

variable {query extended : Query}

/-- What a query becomes stands at the beginning of what any query built on it becomes. -/
theorem compile_of_foldlM {more : List Call} (hmore : more.foldlM Call.apply query = .ok extended)
    {program : Aql.Program} {bound : Aql.Bound}
    (hrun : Aql.NodesRun extended.root.var extended.steps [] program bound) :
    ∃ first middle, Aql.NodesRun query.root.var query.steps [] first middle ∧
      first.statements <+: program.statements ∧ middle <+: bound := by
  obtain ⟨nodes, rfl, _⟩ := appends_foldlM hmore
  exact hrun.of_append

theorem getElem?_steps_push (query : Query) (node : QueryNode) (nodes : List QueryNode) :
    ((query.push node).appendNodes nodes).steps[(query.push node).nodes.length]? = some node := by
  simp [steps, appendNodes, push]

theorem reads_extended {earlier : Query} {node : QueryNode} {more : List Call}
    (hmore : more.foldlM Call.apply (earlier.push node) = .ok extended)
    (hplain : ∀ attributes row, node ≠ .project attributes row)
    {program : Aql.Program} {bound : Aql.Bound}
    (hrun : Aql.NodesRun extended.root.var extended.steps [] program bound) :
    ∃ current clause, program.clauses[(earlier.push node).nodes.length]? = some clause ∧
      ∀ r, r ∈ Aql.usedIn clause ↔ r ∈ Aql.accessesOf current node := by
  obtain ⟨nodes, rfl, _⟩ := appends_foldlM hmore
  exact hrun.reads_at (getElem?_steps_push earlier node nodes) hplain

/-- The clause of a filter that was added last reads its fields where they were then. -/
theorem reads_filter {earlier : Query} {condition : Condition} {more : List Call}
    (hfilter : earlier.filter condition = .ok query)
    (hmore : more.foldlM Call.apply query = .ok extended) {program : Aql.Program}
    {bound : Aql.Bound} (hrun : Aql.NodesRun extended.root.var extended.steps [] program bound) :
    ∃ clause, program.clauses[query.nodes.length]? = some clause ∧ ∀ r, r ∈ Aql.usedIn clause ↔
      ∃ field ∈ condition.fields, r = ⟨field.var?.getD earlier.current.var, field.path⟩ := by
  obtain ⟨resolved, hcondition, hpush⟩ := Outcome.bind_eq_ok_iff.1 hfilter
  obtain rfl := Except.ok.inj hpush
  obtain ⟨current, clause, hclause, hused⟩ := reads_extended hmore (by simp) hrun
  refine ⟨clause, hclause, fun r => (hused r).trans ?_⟩
  rw [Aql.accessesOf, Aql.accesses_resolved (resolves_condition condition hcondition)]
  simp [eq_comm]

/-- The same of a sort. -/
theorem reads_sortBy {earlier : Query} {keys : List SortKey} {more : List Call}
    (hsort : earlier.sortBy keys = .ok query)
    (hmore : more.foldlM Call.apply query = .ok extended) {program : Aql.Program}
    {bound : Aql.Bound} (hrun : Aql.NodesRun extended.root.var extended.steps [] program bound) :
    ∃ clause, program.clauses[query.nodes.length]? = some clause ∧ ∀ r, r ∈ Aql.usedIn clause ↔
      ∃ key ∈ keys, r = ⟨key.field.var?.getD earlier.current.var, key.field.path⟩ := by
  obtain ⟨resolved, hkeys, hpush⟩ := Outcome.bind_eq_ok_iff.1 hsort
  obtain rfl := Except.ok.inj hpush
  obtain ⟨current, clause, hclause, hused⟩ := reads_extended hmore (by simp) hrun
  refine ⟨clause, hclause, fun r => (hused r).trans ?_⟩
  have haccesses : (resolved.map (·.field)).map (Aql.access current) = _ :=
    Aql.accesses_resolved (resolves_keys hkeys)
  rw [List.map_map, List.map_map] at haccesses
  change r ∈ resolved.map (Aql.access current ∘ fun key => key.field) ↔ _
  rw [haccesses]
  simp [eq_comm]

/-- Further calls leave what was built alone.  If the longer query compiles, so does the shorter
one, its text up to what it returns begins the longer text, and its parameters keep their values.
Where a filter or a sort was added last, its clause is about the alias that was current then. -/
theorem extension_keeps {start : Start} {calls more : List Call}
    (hquery : build start calls = .ok query)
    (hmore : more.foldlM Call.apply query = .ok extended) {compiled' : CompiledQuery}
    (hcompiled : extended.compile = .ok compiled') :
    ∃ compiled, query.compile = .ok compiled ∧
      (∃ head result rest words returned, compiled.text = head ++ ("RETURN " ++ result) ∧
        compiled'.text = head ++ rest ∧ Aql.lexemes? head = some words ∧
        Aql.keyword "RETURN" ∉ words ∧
        Aql.lexemes? compiled.text = some (words ++ Aql.keyword "RETURN" :: returned)) ∧
      (∀ key value, Assoc.get? key compiled.bindVars = some value →
        Assoc.get? key compiled'.bindVars = some value) ∧
      ∃ lexemes, Aql.lexemes? compiled'.text = some lexemes ∧
        (∀ earlier condition, filter earlier condition = .ok query →
          ∃ clause, (Aql.clauses lexemes)[query.nodes.length]? = some clause ∧
            ∀ r, r ∈ Aql.usedIn clause ↔
              ∃ field ∈ condition.fields, r = ⟨field.var?.getD earlier.current.var, field.path⟩) ∧
        ∀ earlier keys, sortBy earlier keys = .ok query →
          ∃ clause, (Aql.clauses lexemes)[query.nodes.length]? = some clause ∧
            ∀ r, r ∈ Aql.usedIn clause ↔ ∃ key ∈ keys,
              r = ⟨key.field.var?.getD earlier.current.var, key.field.path⟩ := by
  have hresolved := (isResolved_build hquery).1
  have hresolved' := (extends_foldlM hresolved hmore).resolved
  obtain ⟨program, bound, hrun, htext, hvars⟩ := compile_eq_ok_iff_run.1 hcompiled
  obtain ⟨first, middle, hfirst, hstatements, hmiddle⟩ := compile_of_foldlM hmore hrun
  refine ⟨⟨first.text, Aql.sent middle⟩,
    compile_eq_ok_iff_run.2 ⟨first, middle, hfirst, rfl, rfl⟩, ?_, ?_, ?_⟩
  · have hnamed := hfirst.isNamed (hresolved.named query.root List.mem_cons_self) hresolved.steps
    obtain ⟨others, hothers⟩ := hstatements
    refine ⟨Aql.statementsText first.statements, first.result.text,
      Aql.statementsText others ++ ("RETURN " ++ program.result.text), _, first.result.lexemes,
      Aql.Program.text_eq _ _, ?_, Aql.lexemes?_of_lex (Aql.lex_statements hnamed.statements), ?_,
      Aql.lexemes?_program hnamed⟩
    · have hprogram := Aql.Program.text_eq program.statements program.result
      rw [htext, hprogram, ← hothers, Aql.statementsText_append, String.append_assoc]
    · intro hmem
      obtain ⟨statement, _, hmem⟩ := List.mem_flatMap.1 hmem
      exact Aql.return_notMem_statement statement hmem
  · intro key value hvalue
    rw [hvars]
    exact Aql.get?_sent_mono (hrun.grows.2 Aql.numbered_nil) hmiddle hvalue
  · refine ⟨program.lexemes, htext ▸ hresolved'.lexemes?_text hrun, ?_, ?_⟩
    · rw [Aql.clauses_lexemes]
      exact fun earlier condition hfilter => reads_filter hfilter hmore hrun
    · rw [Aql.clauses_lexemes]
      exact fun earlier keys hsort => reads_sortBy hsort hmore hrun

def ownerCalls : List Call :=
  [.join "owner" ⟨"people", .document, [], true, []⟩,
    .filter (.compare (.ofDotted "name") .eq (.literal (.string "Ada")))]

def portCalls : List Call :=
  [.join "port" ⟨"ports", .document, [], true, []⟩,
    .filter (.compare (.ofDotted "name") .ne (.literal (.string "Riga")))]

theorem extension_keeps_owner :
    ∃ query extended compiled compiled',
      build (.documents ⟨"ships", .document, [], true, []⟩) ownerCalls = .ok query ∧
      portCalls.foldlM Call.apply query = .ok extended ∧
      query.compile = .ok compiled ∧ extended.compile = .ok compiled' ∧
      (∀ key value, Assoc.get? key compiled.bindVars = some value →
        Assoc.get? key compiled'.bindVars = some value) ∧
      ∃ lexemes clause, Aql.lexemes? compiled'.text = some lexemes ∧
        (Aql.clauses lexemes)[2]? = some clause ∧
        ∀ r, r ∈ Aql.usedIn clause ↔ r = ⟨"owner", ["name"]⟩ := by
  have hcompiles : ((build (.documents ⟨"ships", .document, [], true, []⟩) ownerCalls).bind
      fun query => (portCalls.foldlM Call.apply query).bind compile).isOk = true := by
    decide +kernel
  obtain ⟨compiled', hcompiles⟩ := Outcome.exists_of_isOk hcompiles
  obtain ⟨query, hquery, hcompiles⟩ := Outcome.bind_eq_ok_iff.1 hcompiles
  obtain ⟨extended, hmore, hcompiled'⟩ := Outcome.bind_eq_ok_iff.1 hcompiles
  obtain ⟨compiled, hcompiled, _, hvars, lexemes, hlexemes, hfilters, _⟩ :=
    extension_keeps hquery hmore hcompiled'
  -- What the two calls made is taken apart to see the query that the filter was added to.
  have hcalls := hquery
  simp only [build, Start.query, ownerCalls, List.foldlM_cons, List.foldlM_nil,
    Outcome.ok_bind] at hcalls
  obtain ⟨joined, hjoin, hcalls⟩ := Outcome.bind_eq_ok_iff.1 hcalls
  obtain ⟨_, hfilter, hcalls⟩ := Outcome.bind_eq_ok_iff.1 hcalls
  obtain rfl := Except.ok.inj hcalls
  obtain ⟨_, _, hpush⟩ := Outcome.bind_eq_ok_iff.1 hjoin
  obtain rfl := Except.ok.inj hpush
  obtain ⟨clause, hclause, hused⟩ := hfilters _ _ hfilter
  obtain ⟨_, _, hpush⟩ := Outcome.bind_eq_ok_iff.1 hfilter
  obtain rfl := Except.ok.inj hpush
  refine ⟨_, extended, compiled, compiled', hquery, hmore, hcompiled, hcompiled', hvars, lexemes,
    clause, hlexemes, hclause, fun r => (hused r).trans ?_⟩
  have hpath : (FieldRef.ofDotted "name").path = ["name"] := by decide +kernel
  simp only [Condition.fields, Operand.fields, List.mem_singleton, exists_eq_left, hpath]
  exact Iff.rfl

end Query

end DocGraph
