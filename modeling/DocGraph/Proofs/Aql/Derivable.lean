import DocGraph.Proofs.Aql.BareSort
import DocGraph.Proofs.Aql.Run
/-!
# Compiled texts are derived from the grammar

A query whose nodes are resolved compiles to a text that the grammar derives, clause by clause in
the order of the nodes, unless it sorts by no keys: such a sort is written without anything
behind its word.
-/

namespace DocGraph

namespace Aql

variable {current : String} {bound after : Bound}

/-! ## Nodes -/

/-- Any node but a projection becomes one clause of its kind. -/
theorem writes_nodeRun {node : QueryNode} {statement : Statement} (hnamed : node.IsNamed)
    (h : node.IsResolved) (hkeys : node.HasKeys)
    (hrun : NodeRun current node bound statement after) :
    Writes (IsClause node.kind) statement.text := by
  cases hrun with
  | filter hcondition => exact writes_filter (isDerived_condition current _ h hcondition)
  | sort keys => exact writes_sort hkeys h
  | limit hcount => exact writes_limit (kind_of_bind hcount)
  | slice hoffset hcount => exact writes_slice (kind_of_bind hoffset) (kind_of_bind hcount)
  | @traverse traversal _ _ _ hdepth hedges =>
      obtain ⟨start, hstart, hvariable⟩ := h
      refine writes_traverse traversal.direction (hnamed _ List.mem_cons_self) ?_ hdepth
        (by simpa [hstart] using hvariable) (isEdges_compileEdges hedges)
      intro edge hedge
      obtain ⟨binding, hbinding, rfl⟩ := Option.map_eq_some_iff.1 hedge
      exact hnamed binding (List.mem_cons_of_mem _ (Option.mem_toList.2 hbinding))
  | join hcollection =>
      obtain ⟨loop, hloop, hderived⟩ :=
        writes_loop (hnamed _ List.mem_cons_self) (kind_of_bind hcollection)
      exact ⟨loop, hloop, .join hderived⟩

/-! ## Results -/

theorem isRowAttribute_lexemes {projection : Projection} (h : projection.IsResolved) :
    IsRowAttribute
      (attributeLexemes (projection.name, compileSource current projection.source)) := by
  obtain ⟨name, source⟩ := projection
  obtain ⟨hname, hsource⟩ := h
  cases source with
  | field field => exact .field hname (access_isResolved hsource).2
  | var var => exact .document var hname

theorem writes_row {attributes : List Projection} (hsome : attributes ≠ [])
    (h : ∀ projection ∈ attributes, projection.IsResolved) :
    Writes IsResult (compileRow current attributes).text := by
  refine ⟨_, lexemes?_result (isNamed_compileRow h), ?_⟩
  rw [compileRow_eq]
  refine .row _ (by simpa using hsome) ?_
  intro words hwords
  rw [List.map_map] at hwords
  obtain ⟨projection, hprojection, rfl⟩ := List.mem_map.1 hwords
  exact isRowAttribute_lexemes (h projection hprojection)

def clauseKinds (nodes : List QueryNode) : List String :=
  (nodes.map QueryNode.kind).filter fun kind => kind != "Project"

theorem writes_return {result : Result} (h : Writes IsResult result.text) :
    Writes (IsBody []) (Program.text ⟨[], result⟩) := by
  have hword : lex .idle "RETURN ".toList = some ([keyword "RETURN"], .idle) := rfl
  obtain ⟨returned, hreturned, hderived⟩ := h
  exact ⟨_, lexemes?_append_of_idle hword hreturned, .result hderived⟩

theorem writes_cons {statement : Statement} {rest : Program} {kind : String}
    {kinds : List String} (hfirst : Writes (IsClause kind) statement.text)
    (hrest : Writes (IsBody kinds) rest.text) :
    Writes (IsBody (kind :: kinds))
      (Program.text { rest with statements := statement :: rest.statements }) := by
  obtain ⟨clause, hclause, hderived⟩ := hfirst
  obtain ⟨body, hbody, hderived'⟩ := hrest
  rw [Program.text_cons]
  exact ⟨_, lexemes?_spaced hclause hbody, .clause hderived hderived'⟩

theorem clauseKinds_cons {node : QueryNode} (rest : List QueryNode)
    (hplain : ∀ attributes row, node ≠ .project attributes row) :
    clauseKinds (node :: rest) = node.kind :: clauseKinds rest := by
  have hkind : (node.kind != "Project") = true := by
    cases node with
    | project attributes row => exact absurd rfl (hplain attributes row)
    | _ => rfl
  exact List.filter_cons_of_pos hkind

/-- Nodes become clauses in their order, and then a result. -/
theorem writes_compileNodes {nodes : List QueryNode} {program : Program}
    (hcurrent : isVariable current = true)
    (h : ∀ node ∈ nodes, node.IsNamed ∧ node.IsResolved ∧ node.HasKeys)
    (hrun : (compileNodes current nodes).run bound = .ok (program, after)) :
    Writes (IsBody (clauseKinds nodes)) program.text := by
  rw [compileNodes_eq_ok_iff] at hrun
  induction hrun with
  | document current bound =>
      exact writes_return ⟨_, lexemes?_variable hcurrent, .document current⟩
  | row current attributes row bound =>
      obtain ⟨_, ⟨hsome, hresolved⟩, _⟩ := h _ List.mem_cons_self
      exact writes_return (writes_row hsome hresolved)
  | node hnode hrest ih =>
      obtain ⟨⟨hnamed, hresolved, hkeys⟩, hothers⟩ := List.forall_mem_cons.1 h
      rw [clauseKinds_cons _ hnode.isPlain]
      exact writes_cons (writes_nodeRun hnamed hresolved hkeys hnode)
        (ih (isVariable_next hnamed hcurrent) hothers)

/-! ## Sorts without keys -/

theorem lexemes?_cons {statement : Statement} {rest : Program} {clause body : List Lexeme}
    (hclause : lexemes? statement.text = some clause) (hrest : lexemes? rest.text = some body) :
    lexemes? (Program.text { rest with statements := statement :: rest.statements })
      = some (clause ++ body) := by
  rw [Program.text_cons]
  exact lexemes?_spaced hclause hrest

/-- The words that nodes become; there is a bare sort among them if a node has no keys. -/
theorem lexemes?_compileNodes {nodes : List QueryNode} {program : Program}
    (hcurrent : isVariable current = true)
    (h : ∀ node ∈ nodes, node.IsNamed ∧ node.IsResolved)
    (hrun : (compileNodes current nodes).run bound = .ok (program, after)) :
    ∃ word rest, lexemes? program.text = some (keyword word :: rest) ∧
      ((∃ node ∈ nodes, ¬node.HasKeys) → hasBareSort (keyword word :: rest) = true) := by
  rw [compileNodes_eq_ok_iff] at hrun
  induction hrun with
  | document current bound =>
      exact ⟨"RETURN", _, lexemes?_return hcurrent, by simp⟩
  | row current attributes row bound =>
      have hresolved := (h _ List.mem_cons_self).2
      exact ⟨"RETURN", _, lexemes?_return (isNamed_compileRow hresolved.2),
        by simp [QueryNode.HasKeys]⟩
  | @node current node rest statement program bound middle after hnode hrest ih =>
      obtain ⟨⟨hnamed, hresolved⟩, hothers⟩ := List.forall_mem_cons.1 h
      obtain ⟨word, words, hwords, hbare⟩ := ih (isVariable_next hnamed hcurrent) hothers
      by_cases hkeys : node.HasKeys
      · obtain ⟨clause, hclause, hderived⟩ := writes_nodeRun hnamed hresolved hkeys hnode
        obtain ⟨word', rest', rfl⟩ := hderived.begins
        refine ⟨word', rest' ++ keyword word :: words, lexemes?_cons hclause hwords, ?_⟩
        rintro ⟨other, hother, hnokeys⟩
        apply hasBareSort_append_right (keyword word' :: rest')
        rcases List.mem_cons.1 hother with rfl | hother
        · exact absurd hkeys hnokeys
        · exact hbare ⟨other, hother, hnokeys⟩
      · -- Without keys nothing separates the word of the sort from the next one.
        obtain rfl := QueryNode.eq_sort_nil_of_not_hasKeys hkeys
        cases hnode
        have hsort : lexemes? (Statement.sort []).text = some [keyword "SORT"] := rfl
        refine ⟨"SORT", _, lexemes?_cons hsort hwords, ?_⟩
        intro _
        simp [hasBareSort, Lexeme.isKeyword, keyword]

end Aql

namespace Query

/-- A text is derived from the grammar exactly when no call sorts by no keys; then it has a clause
for each node that is no projection, in the order of the nodes. -/
theorem derivable_iff_sorts_have_keys {start : Start} {calls : List Call} {query : Query}
    {compiled : CompiledQuery} (hquery : build start calls = .ok query)
    (hcompiled : query.compile = .ok compiled) :
    (∃ lexemes, Aql.lexemes? compiled.text = some lexemes ∧
      Aql.IsProgram (Aql.clauseKinds query.nodes) lexemes) ↔ ∀ call ∈ calls, call.HasKeys := by
  obtain ⟨hresolved, hiff⟩ := isResolved_build hquery
  obtain ⟨program, bound, hrun, htext, _⟩ := compile_eq_ok_iff.1 hcompiled
  obtain ⟨collection, middle, hcollection, hrun⟩ := Aql.run_bind_eq_ok_iff.1 hrun
  obtain ⟨body, last, hbody, hpure⟩ := Aql.run_bind_eq_ok_iff.1 hrun
  obtain ⟨rfl, _⟩ := Aql.run_pure_eq_ok_iff.1 hpure
  have hroot := hresolved.named query.root List.mem_cons_self
  have hnodes : ∀ node ∈ query.nodes, node.IsNamed ∧ node.IsResolved := by
    intro node hnode
    refine ⟨?_, hresolved.nodes node hnode⟩
    intro binding hbinding
    exact hresolved.named binding
      (List.mem_cons_of_mem _ (List.mem_flatMap.2 ⟨node, hnode, hbinding⟩))
  obtain ⟨loop, hloop, hderived⟩ := Aql.writes_loop hroot (Aql.kind_of_bind hcollection)
  rw [htext, ← hiff]
  constructor
  · rintro ⟨lexemes, hlexemes, hprogram⟩
    obtain ⟨word, rest, hrest, hbare⟩ := Aql.lexemes?_compileNodes hroot hnodes hbody
    rw [Aql.lexemes?_cons hloop hrest] at hlexemes
    obtain rfl := Option.some.inj hlexemes
    have hnone := hprogram.hasBareSort
    rw [Aql.hasBareSort_append hderived.not_mem_sort] at hnone
    intro node hnode
    refine Classical.byContradiction fun hnokeys => ?_
    rw [hbare ⟨node, hnode, hnokeys⟩] at hnone
    cases hnone
  · intro hkeys
    obtain ⟨rest, hrest, hderived'⟩ := Aql.writes_compileNodes hroot
      (fun node hnode => ⟨(hnodes node hnode).1, (hnodes node hnode).2, hkeys node hnode⟩) hbody
    exact ⟨_, Aql.lexemes?_cons hloop hrest, .program hderived hderived'⟩

def voyageCalls : List Call :=
  let ports : Schema := ⟨"ports", .document, [⟨"name", .primitive .string, true, none, false, none⟩,
    ⟨"flags", .listOf (.primitive .string), false, none, false, none⟩], true, []⟩
  [.traverse ⟨.any, 1, 3, .edgeCollections ["routes", "ferries"], ⟨"port", ports⟩,
      some ⟨"route", ⟨"routes", .edge, [], true, []⟩⟩, none⟩,
    .joinOn "home" ports (.compare (.ofAlias "home" "name") .eq (.field (.ofAlias "port" "name"))),
    .filter (.any [.all [], .negation (.compare (.ofAlias "port" "flags") .noneOf
      (.literal (.array []))), .compare (.ofDotted "name") .endsWith (.literal .null)]),
    .sortBy [⟨.ofAlias "port" "name", .desc⟩, ⟨.ofDotted "a`b.c", .asc⟩],
    .slice 5 10,
    .project [⟨"port", .var "port"⟩, ⟨"name", .field (.ofDotted "name")⟩]]

theorem derivable_voyage :
    ∃ query compiled,
      build (.documents ⟨"ships", .document, [], true, []⟩) voyageCalls = .ok query ∧
      query.compile = .ok compiled ∧
      Aql.clauseKinds query.nodes = ["Traverse", "Join", "Filter", "Filter", "Sort", "Limit"] ∧
      ∃ lexemes, Aql.lexemes? compiled.text = some lexemes ∧
        Aql.IsProgram (Aql.clauseKinds query.nodes) lexemes := by
  have hcompiles : ((build (.documents ⟨"ships", .document, [], true, []⟩) voyageCalls).bind
      compile).isOk = true := by
    decide +kernel
  have hkinds : (build (.documents ⟨"ships", .document, [], true, []⟩) voyageCalls).map
      (fun query => Aql.clauseKinds query.nodes)
        = .ok ["Traverse", "Join", "Filter", "Filter", "Sort", "Limit"] := rfl
  obtain ⟨compiled, hcompiles⟩ := Outcome.exists_of_isOk hcompiles
  obtain ⟨query, hquery, hcompiled⟩ := Outcome.bind_eq_ok_iff.1 hcompiles
  rw [hquery] at hkinds
  have hderivable := derivable_iff_sorts_have_keys hquery hcompiled
  refine ⟨query, compiled, hquery, hcompiled, Except.ok.inj hkinds, hderivable.2 ?_⟩
  simp [voyageCalls, Call.HasKeys]

/-- Sorting by no keys leaves a text that no program of the grammar has. -/
theorem not_derivable_sort_by_nothing :
    ∃ query compiled,
      build (.documents ⟨"users", .document, [], false, []⟩) [.sortBy []] = .ok query ∧
      query.compile = .ok compiled ∧
      compiled.text = "FOR doc IN @@collection_0 SORT  RETURN doc" ∧
      ¬∃ lexemes kinds, Aql.lexemes? compiled.text = some lexemes ∧
        Aql.IsProgram kinds lexemes := by
  refine ⟨⟨⟨"doc", ⟨"users", .document, [], false, []⟩⟩, [.sort []]⟩, ⟨_, _⟩, rfl, rfl, rfl, ?_⟩
  rintro ⟨lexemes, kinds, hlexemes, hprogram⟩
  have hbare : (Aql.lexemes? "FOR doc IN @@collection_0 SORT  RETURN doc").map Aql.hasBareSort
      = some true := by
    decide +kernel
  have hread : Aql.lexemes? "FOR doc IN @@collection_0 SORT  RETURN doc" = some lexemes :=
    hlexemes
  rw [hread, Option.map_some, hprogram.hasBareSort] at hbare
  cases hbare

end Query

end DocGraph
