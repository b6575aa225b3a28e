import DocGraph.Proofs.Aql.Clause
/-!
# The run of a compilation

Each node becomes one statement, until a projection or the end of the nodes becomes the result.
The loop over the documents that a query starts from is the loop of a join with them.
-/

namespace DocGraph

def QueryNode.next (node : QueryNode) (current : String) : String :=
  (node.current?.map (·.var)).getD current

/-- The nodes of a query, with the documents that it starts from before them. -/
def Query.steps (query : Query) : List QueryNode := .join query.root :: query.nodes

namespace Aql

inductive NodeRun (current : String) : QueryNode → Bound → Statement → Bound → Prop
  | filter {condition : Condition} {formula : Formula} {bound after : Bound} :
      (compileCondition current condition).run bound = .ok (formula, after) →
      NodeRun current (.filter condition) bound (.filter formula) after
  | sort (keys : List SortKey) (bound : Bound) :
      NodeRun current (.sort keys) bound
        (.sort (keys.map fun key => (access current key.field, key.direction))) bound
  | limit {count : UInt64} {p : Parameter} {bound after : Bound} :
      (bind .count (.ofUInt64 count)).run bound = .ok (p, after) →
      NodeRun current (.limit none count) bound (.limit none p) after
  | slice {offset count : UInt64} {p q : Parameter} {bound middle after : Bound} :
      (bind .offset (.ofUInt64 offset)).run bound = .ok (p, middle) →
      (bind .count (.ofUInt64 count)).run middle = .ok (q, after) →
      NodeRun current (.limit (some offset) count) bound (.limit (some p) q) after
  | traverse {traversal : Traversal} {edges : TraversalEdges} {bound after : Bound} :
      traversal.minDepth ≤ traversal.maxDepth →
      (compileEdges traversal.target).run bound = .ok (edges, after) →
      NodeRun current (.traverse traversal) bound
        (.traverse traversal.vertex.var (traversal.edge?.map (·.var)) traversal.minDepth
          traversal.maxDepth traversal.direction (traversal.start?.getD current) edges) after
  | join {binding : Binding} {p : Parameter} {bound after : Bound} :
      (bind .collection (.string binding.schema.name)).run bound = .ok (p, after) →
      NodeRun current (.join binding) bound (.forEach binding.var p) after

inductive NodesRun : String → List QueryNode → Bound → Program → Bound → Prop
  | document (current : String) (bound : Bound) :
      NodesRun current [] bound ⟨[], .document current⟩ bound
  | row (current : String) (attributes : List Projection) (row : Schema) (bound : Bound) :
      NodesRun current [.project attributes row] bound ⟨[], compileRow current attributes⟩ bound
  | node {current : String} {node : QueryNode} {rest : List QueryNode} {statement : Statement}
      {program : Program} {bound middle after : Bound} :
      NodeRun current node bound statement middle →
      NodesRun (node.next current) rest middle program after →
      NodesRun current (node :: rest) bound
        { program with statements := statement :: program.statements } after

variable {current : String} {node : QueryNode} {nodes : List QueryNode} {bound after : Bound}
  {program : Program}

/-! ## Runs are what the compiler does -/

theorem NodeRun.isPlain {statement : Statement} (h : NodeRun current node bound statement after) :
    ∀ attributes row, node ≠ .project attributes row := by
  cases h <;> simp

theorem nodeRun_of_compileTraversal {traversal : Traversal} {statement : Statement}
    (hrun : (compileTraversal current traversal).run bound = .ok (statement, after)) :
    NodeRun current (.traverse traversal) bound statement after := by
  unfold compileTraversal at hrun
  by_cases hdepth : traversal.maxDepth < traversal.minDepth
  · rw [if_pos hdepth] at hrun
    cases hrun
  · rw [if_neg hdepth] at hrun
    obtain ⟨edges, middle, hedges, hpure⟩ := run_bind_eq_ok_iff.1 hrun
    obtain ⟨rfl, rfl⟩ := run_pure_eq_ok_iff.1 hpure
    exact .traverse (Nat.not_lt.1 hdepth) hedges

theorem nodeRun_of_compileNode {statements : List Statement}
    (hplain : ∀ attributes row, node ≠ .project attributes row)
    (hrun : (compileNode current node).run bound = .ok (statements, after)) :
    ∃ statement, statements = [statement] ∧ NodeRun current node bound statement after := by
  cases node with
  | filter condition =>
      obtain ⟨formula, middle, hcondition, hpure⟩ := run_bind_eq_ok_iff.1 hrun
      obtain ⟨rfl, rfl⟩ := run_pure_eq_ok_iff.1 hpure
      exact ⟨_, rfl, .filter hcondition⟩
  | sort keys =>
      obtain ⟨rfl, rfl⟩ := run_pure_eq_ok_iff.1 hrun
      exact ⟨_, rfl, .sort keys bound⟩
  | limit offset count =>
      cases offset with
      | none =>
          obtain ⟨p, middle, hcount, hpure⟩ := run_bind_eq_ok_iff.1 hrun
          obtain ⟨rfl, rfl⟩ := run_pure_eq_ok_iff.1 hpure
          exact ⟨_, rfl, .limit hcount⟩
      | some offset =>
          obtain ⟨p, middle, hoffset, hrun⟩ := run_bind_eq_ok_iff.1 hrun
          obtain ⟨q, last, hcount, hpure⟩ := run_bind_eq_ok_iff.1 hrun
          obtain ⟨rfl, rfl⟩ := run_pure_eq_ok_iff.1 hpure
          exact ⟨_, rfl, .slice hoffset hcount⟩
  | project attributes row => exact absurd rfl (hplain attributes row)
  | traverse traversal =>
      obtain ⟨statement, middle, htraversal, hpure⟩ := run_bind_eq_ok_iff.1 hrun
      obtain ⟨rfl, rfl⟩ := run_pure_eq_ok_iff.1 hpure
      exact ⟨_, rfl, nodeRun_of_compileTraversal htraversal⟩
  | join binding =>
      obtain ⟨p, middle, hcollection, hpure⟩ := run_bind_eq_ok_iff.1 hrun
      obtain ⟨rfl, rfl⟩ := run_pure_eq_ok_iff.1 hpure
      exact ⟨_, rfl, .join hcollection⟩

theorem compileNode_of_nodeRun {statement : Statement}
    (h : NodeRun current node bound statement after) :
    (compileNode current node).run bound = .ok ([statement], after) := by
  cases h with
  | filter hcondition =>
      exact run_bind_eq_ok_iff.2 ⟨_, _, hcondition, run_pure_eq_ok_iff.2 ⟨rfl, rfl⟩⟩
  | sort keys => exact run_pure_eq_ok_iff.2 ⟨rfl, rfl⟩
  | limit hcount => exact run_bind_eq_ok_iff.2 ⟨_, _, hcount, run_pure_eq_ok_iff.2 ⟨rfl, rfl⟩⟩
  | slice hoffset hcount =>
      refine run_bind_eq_ok_iff.2 ⟨_, _, hoffset, ?_⟩
      exact run_bind_eq_ok_iff.2 ⟨_, _, hcount, run_pure_eq_ok_iff.2 ⟨rfl, rfl⟩⟩
  | traverse hdepth hedges =>
      refine run_bind_eq_ok_iff.2 ⟨_, _, ?_, run_pure_eq_ok_iff.2 ⟨rfl, rfl⟩⟩
      rw [compileTraversal, if_neg (Nat.not_lt.2 hdepth)]
      exact run_bind_eq_ok_iff.2 ⟨_, _, hedges, run_pure_eq_ok_iff.2 ⟨rfl, rfl⟩⟩
  | join hcollection =>
      exact run_bind_eq_ok_iff.2 ⟨_, _, hcollection, run_pure_eq_ok_iff.2 ⟨rfl, rfl⟩⟩

theorem compileNodes_eq_ok_iff :
    (compileNodes current nodes).run bound = .ok (program, after) ↔
      NodesRun current nodes bound program after := by
  constructor
  · intro hrun
    induction nodes generalizing current bound program with
    | nil =>
        obtain ⟨rfl, rfl⟩ := run_pure_eq_ok_iff.1 hrun
        exact .document current bound
    | cons node rest ih =>
        by_cases hproject : ∃ attributes row, node = .project attributes row
        · obtain ⟨attributes, row, rfl⟩ := hproject
          rw [compileNodes_project] at hrun
          cases rest with
          | cons next rest => cases hrun
          | nil =>
              obtain ⟨rfl, rfl⟩ := run_pure_eq_ok_iff.1 hrun
              exact .row current attributes row bound
        · have hplain : ∀ attributes row, node ≠ .project attributes row :=
            fun attributes row h => hproject ⟨attributes, row, h⟩
          rw [compileNodes_cons current rest hplain] at hrun
          obtain ⟨statements, middle, hnode, hrun⟩ := run_bind_eq_ok_iff.1 hrun
          obtain ⟨tail, last, htail, hpure⟩ := run_bind_eq_ok_iff.1 hrun
          obtain ⟨rfl, rfl⟩ := run_pure_eq_ok_iff.1 hpure
          obtain ⟨statement, rfl, hstatement⟩ := nodeRun_of_compileNode hplain hnode
          exact .node hstatement (ih htail)
  · intro h
    induction h with
    | document current bound => exact run_pure_eq_ok_iff.2 ⟨rfl, rfl⟩
    | row current attributes row bound =>
        rw [compileNodes_project]
        exact run_pure_eq_ok_iff.2 ⟨rfl, rfl⟩
    | node hnode hrest ih =>
        rw [compileNodes_cons _ _ hnode.isPlain]
        refine run_bind_eq_ok_iff.2 ⟨_, _, compileNode_of_nodeRun hnode, ?_⟩
        exact run_bind_eq_ok_iff.2 ⟨_, _, ih, run_pure_eq_ok_iff.2 ⟨rfl, rfl⟩⟩

theorem compileQuery_eq_ok_iff {query : Query} :
    (compileQuery query).run bound = .ok (program, after) ↔
      NodesRun query.root.var query.steps bound program after := by
  constructor
  · intro hrun
    obtain ⟨collection, middle, hcollection, hrun⟩ := run_bind_eq_ok_iff.1 hrun
    obtain ⟨body, last, hbody, hpure⟩ := run_bind_eq_ok_iff.1 hrun
    obtain ⟨rfl, rfl⟩ := run_pure_eq_ok_iff.1 hpure
    exact .node (.join hcollection) (compileNodes_eq_ok_iff.1 hbody)
  · intro h
    cases h with
    | node hroot hbody =>
        cases hroot with
        | join hcollection =>
            refine run_bind_eq_ok_iff.2 ⟨_, _, hcollection, ?_⟩
            exact run_bind_eq_ok_iff.2
              ⟨_, _, compileNodes_eq_ok_iff.2 hbody, run_pure_eq_ok_iff.2 ⟨rfl, rfl⟩⟩

/-! ## Variables of the program -/

theorem isVariable_next (hnamed : node.IsNamed) (hcurrent : isVariable current = true) :
    isVariable (node.next current) = true := by
  cases node with
  | join binding => exact hnamed _ List.mem_cons_self
  | traverse traversal => exact hnamed _ List.mem_cons_self
  | _ => exact hcurrent

theorem NodeRun.isNamed {statement : Statement} (h : NodeRun current node bound statement after)
    (hnamed : node.IsNamed) (hresolved : node.IsResolved) : statement.IsNamed := by
  cases h with
  | filter hcondition => exact (isDerived_condition current _ hresolved hcondition).1
  | sort keys =>
      intro sorted hsorted
      obtain ⟨key, hkey, rfl⟩ := List.mem_map.1 hsorted
      exact (access_isResolved (hresolved key hkey)).1
  | limit hcount => trivial
  | slice hoffset hcount => trivial
  | traverse hdepth hedges =>
      obtain ⟨start, hstart, hvariable⟩ := hresolved
      refine ⟨hnamed _ List.mem_cons_self, ?_, by simpa [hstart] using hvariable⟩
      intro edge hedge
      obtain ⟨binding, hbinding, rfl⟩ := Option.map_eq_some_iff.1 hedge
      exact hnamed binding (List.mem_cons_of_mem _ (Option.mem_toList.2 hbinding))
  | join hcollection => exact hnamed _ List.mem_cons_self

def compileSource (current : String) : ProjectionSource → RowSource
  | .field field => .access (access current field)
  | .var name => .document name

theorem compileRow_eq (current : String) (attributes : List Projection) :
    compileRow current attributes = .row (attributes.map fun projection =>
      (projection.name, compileSource current projection.source)) := by
  refine congrArg Result.row (List.map_congr_left fun projection _ => ?_)
  cases projection.source <;> rfl

theorem isNamed_source {source : ProjectionSource} (h : source.IsResolved) :
    (compileSource current source).IsNamed := by
  cases source with
  | field field => exact (access_isResolved h).1
  | var name => exact h

theorem isNamed_compileRow {attributes : List Projection}
    (h : ∀ projection ∈ attributes, projection.IsResolved) :
    (compileRow current attributes).IsNamed := by
  rw [compileRow_eq]
  intro entry hentry
  obtain ⟨projection, hprojection, rfl⟩ := List.mem_map.1 hentry
  exact isNamed_source (h projection hprojection).source

/-- What resolved nodes become has variables where variables stand. -/
theorem NodesRun.isNamed (h : NodesRun current nodes bound program after)
    (hcurrent : isVariable current = true)
    (hnodes : ∀ node ∈ nodes, node.IsNamed ∧ node.IsResolved) : program.IsNamed := by
  induction h with
  | document current bound => exact ⟨by simp, hcurrent⟩
  | row current attributes row bound =>
      have hresolved := (hnodes _ List.mem_cons_self).2
      exact ⟨by simp, isNamed_compileRow hresolved.2⟩
  | node hnode hrest ih =>
      obtain ⟨⟨hnamed, hresolved⟩, hothers⟩ := List.forall_mem_cons.1 hnodes
      have hbody := ih (isVariable_next hnamed hcurrent) hothers
      exact ⟨List.forall_mem_cons.2 ⟨hnode.isNamed hnamed hresolved, hbody.statements⟩,
        hbody.result⟩

end Aql

namespace Query

variable {query : Query} {compiled : CompiledQuery}

theorem compile_eq_ok_iff_run :
    query.compile = .ok compiled ↔ ∃ program bound,
      Aql.NodesRun query.root.var query.steps [] program bound ∧ compiled.text = program.text ∧
      compiled.bindVars = Aql.sent bound := by
  simp only [compile_eq_ok_iff, Aql.compileQuery_eq_ok_iff]

theorem IsResolved.steps (h : query.IsResolved) :
    ∀ node ∈ query.steps, node.IsNamed ∧ node.IsResolved := by
  refine List.forall_mem_cons.2 ⟨⟨?_, trivial⟩, fun node hnode => ⟨?_, h.nodes node hnode⟩⟩
  · intro binding hbinding
    rw [List.mem_singleton.1 hbinding]
    exact h.named query.root List.mem_cons_self
  · intro binding hbinding
    exact h.named binding
      (List.mem_cons_of_mem _ (List.mem_flatMap.2 ⟨node, hnode, hbinding⟩))

theorem IsResolved.lexemes?_text (h : query.IsResolved) {program : Aql.Program} {bound : Aql.Bound}
    (hrun : Aql.NodesRun query.root.var query.steps [] program bound) :
    Aql.lexemes? program.text = some program.lexemes :=
  Aql.lexemes?_program (hrun.isNamed (h.named query.root List.mem_cons_self) h.steps)

end Query

end DocGraph
