import DocGraph.Proofs.Aql.Compile
/-!
# Queries that are not compiled

A node offends if it stands behind a projection, if it is a walk of no length or along no edges, or
if it looks for a field among candidates that are not an array, however deep in its condition.
Compiling fails exactly if some node offends, and the failure names the first node that does.
-/

namespace DocGraph

/-! ## Offences -/

inductive Condition.Compares (field : FieldRef) (operator : Operator) (operand : Operand) :
    Condition → Prop where
  | here : Compares field operator operand (.compare field operator operand)
  | all {part : Condition} {parts : List Condition} (hmem : part ∈ parts)
      (hpart : Compares field operator operand part) :
      Compares field operator operand (.all parts)
  | any {part : Condition} {parts : List Condition} (hmem : part ∈ parts)
      (hpart : Compares field operator operand part) :
      Compares field operator operand (.any parts)
  | negation {part : Condition} (hpart : Compares field operator operand part) :
      Compares field operator operand (.negation part)

/-- A condition looks for a field among candidates that are not an array, at some depth. -/
def Condition.Lacks (condition : Condition) (reason : String) : Prop :=
  ∃ field operator value, condition.Compares field operator (.literal value) ∧
    (operator = .anyOf ∨ operator = .noneOf) ∧ value.isArray = false ∧
    reason = field.dotted ++ " needs an array of candidates"

namespace Condition

theorem lacks_iff_of_parts {whole : Condition} {parts : List Condition}
    (h : ∀ field operator operand, whole.Compares field operator operand ↔
      ∃ part ∈ parts, part.Compares field operator operand) (reason : String) :
    whole.Lacks reason ↔ ∃ part ∈ parts, part.Lacks reason := by
  unfold Lacks
  simp only [h]
  constructor
  · rintro ⟨field, operator, value, ⟨part, hmem, hcompares⟩, hrest⟩
    exact ⟨part, hmem, field, operator, value, hcompares, hrest⟩
  · rintro ⟨part, hmem, field, operator, value, hcompares, hrest⟩
    exact ⟨field, operator, value, ⟨part, hmem, hcompares⟩, hrest⟩

theorem lacks_all (parts : List Condition) (reason : String) :
    Lacks (.all parts) reason ↔ ∃ part ∈ parts, part.Lacks reason := by
  refine lacks_iff_of_parts (fun field operator operand => ⟨?_, ?_⟩) reason
  · intro h
    cases h with
    | all hmem hpart => exact ⟨_, hmem, hpart⟩
  · rintro ⟨part, hmem, hpart⟩
    exact .all hmem hpart

theorem lacks_any (parts : List Condition) (reason : String) :
    Lacks (.any parts) reason ↔ ∃ part ∈ parts, part.Lacks reason := by
  refine lacks_iff_of_parts (fun field operator operand => ⟨?_, ?_⟩) reason
  · intro h
    cases h with
    | any hmem hpart => exact ⟨_, hmem, hpart⟩
  · rintro ⟨part, hmem, hpart⟩
    exact .any hmem hpart

theorem lacks_negation (part : Condition) (reason : String) :
    Lacks (.negation part) reason ↔ part.Lacks reason := by
  have hparts : Lacks (.negation part) reason ↔ ∃ other ∈ [part], other.Lacks reason := by
    refine lacks_iff_of_parts (fun field operator operand => ⟨?_, ?_⟩) reason
    · intro h
      cases h with
      | negation hpart => exact ⟨part, List.mem_singleton_self part, hpart⟩
    · rintro ⟨other, hmem, hpart⟩
      obtain rfl := List.mem_singleton.1 hmem
      exact .negation hpart
  rw [hparts]
  simp

theorem lacks_presence (field : FieldRef) (isPresent : Bool) (reason : String) :
    ¬ Lacks (.presence field isPresent) reason := by
  rintro ⟨_, _, _, hcompares, _⟩
  cases hcompares

end Condition

/-- Why a node behind some others is not compiled. -/
inductive QueryNode.Offends (before : List QueryNode) : QueryNode → String → Prop where
  | behindProjection (node : QueryNode) {attributes : List Projection} {row : Schema}
      (hmem : .project attributes row ∈ before) :
      Offends before node "nodes cannot follow a projection"
  | noDepth {traversal : Traversal} (hdepth : traversal.maxDepth < traversal.minDepth) :
      Offends before (.traverse traversal)
        ("depth " ++ toString traversal.minDepth ++ ".." ++ toString traversal.maxDepth
          ++ " is empty")
  | noEdges {traversal : Traversal} (htarget : traversal.target = .edgeCollections []) :
      Offends before (.traverse traversal) "no edge collections to follow"
  | noCandidates {condition : Condition} {reason : String} (hlacks : condition.Lacks reason) :
      Offends before (.filter condition) reason

def Unoffending (nodes : List QueryNode) : Prop :=
  ∀ before node after reason, nodes = before ++ node :: after → ¬ node.Offends before reason

def FirstOffends (nodes : List QueryNode) (node : QueryNode) (reason : String) : Prop :=
  ∃ before after, nodes = before ++ node :: after ∧ Unoffending before ∧ node.Offends before reason

theorem unoffending_nil : Unoffending [] := by
  intro before node after reason h
  simp at h

namespace QueryNode

variable {node other : QueryNode} {before nodes : List QueryNode} {reason : String}

theorem offends_cons_iff (h : ∀ attributes row, node ≠ .project attributes row) :
    other.Offends (node :: before) reason ↔ other.Offends before reason := by
  constructor
  · rintro (⟨_, hmem⟩ | hdepth | htarget | hlacks)
    · rcases List.mem_cons.1 hmem with heq | hmem
      · exact absurd heq.symm (h _ _)
      · exact .behindProjection _ hmem
    · exact .noDepth hdepth
    · exact .noEdges htarget
    · exact .noCandidates hlacks
  · rintro (⟨_, hmem⟩ | hdepth | htarget | hlacks)
    · exact .behindProjection _ (List.mem_cons_of_mem _ hmem)
    · exact .noDepth hdepth
    · exact .noEdges htarget
    · exact .noCandidates hlacks

theorem unoffending_cons_iff (h : ∀ attributes row, node ≠ .project attributes row) :
    Unoffending (node :: nodes) ↔ (∀ reason, ¬ node.Offends [] reason) ∧ Unoffending nodes := by
  constructor
  · intro hnodes
    refine ⟨fun reason => hnodes [] node nodes reason rfl, ?_⟩
    rintro before other after reason rfl hoffends
    exact hnodes (node :: before) other after reason rfl ((offends_cons_iff h).2 hoffends)
  · rintro ⟨hnode, hnodes⟩ before other after reason hsplit hoffends
    cases before with
    | nil =>
        obtain ⟨rfl, rfl⟩ := List.cons.inj hsplit
        exact hnode reason hoffends
    | cons first before =>
        obtain ⟨rfl, rfl⟩ := List.cons.inj hsplit
        exact hnodes before other after reason rfl ((offends_cons_iff h).1 hoffends)

theorem firstOffends_cons (h : ∀ attributes row, node ≠ .project attributes row)
    (hnode : ∀ reason, ¬ node.Offends [] reason) (hfirst : FirstOffends nodes other reason) :
    FirstOffends (node :: nodes) other reason := by
  obtain ⟨before, after, rfl, hbefore, hoffends⟩ := hfirst
  exact ⟨node :: before, after, rfl, (unoffending_cons_iff h).2 ⟨hnode, hbefore⟩,
    (offends_cons_iff h).2 hoffends⟩

theorem unoffending_project (attributes : List Projection) (row : Schema) :
    Unoffending [.project attributes row] := by
  intro before node after reason hsplit hoffends
  cases before with
  | nil =>
      obtain ⟨rfl, -⟩ := List.cons.inj hsplit
      cases hoffends with
      | behindProjection _ hmem => simp at hmem
  | cons first before => simp at hsplit

end QueryNode

namespace Aql

variable {α β : Type} {kind : String} {faulty : String → Prop}

/-- A step of the compilation fails exactly if there is a reason to, and then with such a reason. -/
def Faults (step : Compile α) (kind : String) (faulty : String → Prop) : Prop :=
  ∀ bound, ((∀ reason, ¬ faulty reason) ∧ ∃ result, step.run bound = .ok result) ∨
    ∃ reason, faulty reason ∧ step.run bound = .error (.unsupportedQuery kind reason)

namespace Faults

theorem congr {other : String → Prop} {step : Compile α} (h : Faults step kind faulty)
    (hiff : ∀ reason, faulty reason ↔ other reason) : Faults step kind other := by
  obtain rfl : faulty = other := funext fun reason => propext (hiff reason)
  exact h

theorem pure (a : α) : Faults (pure a : Compile α) kind fun _ => False :=
  fun bound => .inl ⟨fun _ => id, (a, bound), rfl⟩

theorem throw (reason : String) :
    Faults (throw (.unsupportedQuery kind reason) : Compile α) kind (· = reason) :=
  fun _ => .inr ⟨reason, rfl, rfl⟩

theorem seq {other : String → Prop} {first : Compile α} {next : α → Compile β}
    (hfirst : Faults first kind faulty) (hnext : ∀ a, Faults (next a) kind other) :
    Faults (first >>= next) kind fun reason => faulty reason ∨ other reason := by
  intro bound
  rw [StateT.run_bind]
  rcases hfirst bound with ⟨hnone, ⟨a, middle⟩, hrun⟩ | ⟨reason, hfaulty, hrun⟩
  · rw [hrun, Outcome.ok_bind]
    rcases hnext a middle with ⟨hnone', hresult⟩ | ⟨reason, hfaulty, hrun'⟩
    · exact .inl ⟨fun reason => not_or.2 ⟨hnone reason, hnone' reason⟩, hresult⟩
    · exact .inr ⟨reason, .inr hfaulty, hrun'⟩
  · rw [hrun, Outcome.error_bind]
    exact .inr ⟨reason, .inl hfaulty, rfl⟩

theorem map {step : Compile α} (h : Faults step kind faulty) (f : α → β) :
    Faults (step >>= fun a => Pure.pure (f a)) kind faulty :=
  (h.seq fun a => pure (f a)).congr fun _ => or_iff_left id

theorem bind (parameter : ParameterKind) (value : Json) :
    Faults (Aql.bind parameter value) kind fun _ => False :=
  fun _ => .inl ⟨fun _ => id, _, rfl⟩

end Faults

/-! ## Conditions -/

theorem lacks_compare (field : FieldRef) (operator : Operator) (operand : Operand)
    (reason : String) :
    Condition.Lacks (.compare field operator operand) reason ↔
      lacksCandidates operator operand = true ∧
        reason = field.dotted ++ " needs an array of candidates" := by
  constructor
  · rintro ⟨_, _, value, ⟨⟩, hoperator, hvalue, rfl⟩
    exact ⟨by simpa [lacksCandidates, hvalue] using hoperator, rfl⟩
  · rintro ⟨hlacks, rfl⟩
    cases operand with
    | literal value =>
        simp only [lacksCandidates, Bool.and_eq_true, Bool.or_eq_true, beq_iff_eq,
          Bool.not_eq_true'] at hlacks
        exact ⟨field, operator, value, .here, hlacks.1, hlacks.2, rfl⟩
    | field other => simp [lacksCandidates] at hlacks

theorem faults_operand (current : String) (operand : Operand) :
    Faults (compileOperand current operand) kind fun _ => False := by
  cases operand with
  | literal value => exact (Faults.bind _ _).map _
  | field field => exact Faults.pure _

theorem faults_group (connective : Connective) (parts : List Formula) :
    Faults (group connective parts) kind fun _ => False := by
  match parts with
  | [] => exact (Faults.bind _ _).map _
  | [part] => exact Faults.pure _
  | first :: second :: rest => exact Faults.pure _

theorem faults_compare (current : String) (field : FieldRef) (operator : Operator)
    (operand : Operand) :
    Faults (compileCondition current (.compare field operator operand)) "Filter"
      (Condition.Lacks (.compare field operator operand)) := by
  unfold compileCondition
  refine Faults.congr ?_ fun reason => (lacks_compare field operator operand reason).symm
  by_cases hlacks : lacksCandidates operator operand = true
  · rw [if_pos hlacks]
    exact (Faults.throw _).congr fun reason => by simp [hlacks]
  · rw [if_neg hlacks]
    exact ((faults_operand current operand).map _).congr fun reason => by simp [hlacks]

mutual
theorem faults_condition (current : String) : (condition : Condition) →
    Faults (compileCondition current condition) "Filter" condition.Lacks
  | .all parts => by
      refine ((faults_parts current parts).seq fun _ => faults_group .and _).congr fun reason => ?_
      rw [Condition.lacks_all, or_iff_left id]
  | .any parts => by
      refine ((faults_parts current parts).seq fun _ => faults_group .or _).congr fun reason => ?_
      rw [Condition.lacks_any, or_iff_left id]
  | .negation part =>
      ((faults_condition current part).map _).congr fun reason =>
        (Condition.lacks_negation part reason).symm
  | .presence field isPresent =>
      (Faults.pure _).congr fun reason =>
        (iff_false_intro (Condition.lacks_presence field isPresent reason)).symm
  | .compare field operator operand => faults_compare current field operator operand
termination_by structural condition => condition

theorem faults_parts (current : String) : (parts : List Condition) →
    Faults (compileConditions current parts) "Filter" fun reason =>
      ∃ part ∈ parts, part.Lacks reason
  | [] => (Faults.pure []).congr fun reason => by simp
  | part :: parts =>
      ((faults_condition current part).seq fun _ => (faults_parts current parts).map _).congr
        fun reason => by simp
termination_by structural parts => parts
end

/-! ## Nodes -/

theorem faults_names (names : List String) :
    Faults (names.mapM fun name => Aql.bind .edges (.string name)) kind fun _ => False := by
  induction names with
  | nil => exact Faults.pure []
  | cons name names ih =>
      rw [List.mapM_cons]
      exact ((Faults.bind _ _).seq fun _ => ih.map _).congr fun reason => by simp

theorem faults_edges (target : TraversalTarget) :
    Faults (compileEdges target) "Traverse" fun reason =>
      target = .edgeCollections [] ∧ reason = "no edge collections to follow" := by
  cases target with
  | graph name => exact ((Faults.bind _ _).map _).congr fun reason => by simp
  | edgeCollections names =>
      unfold compileEdges
      cases names with
      | nil => exact (Faults.throw _).congr fun reason => by simp
      | cons name names =>
          exact ((faults_names (name :: names)).map _).congr fun reason => by simp

theorem faults_traversal (current : String) (traversal : Traversal) :
    Faults (compileTraversal current traversal) "Traverse"
      (QueryNode.Offends [] (.traverse traversal)) := by
  unfold compileTraversal
  by_cases hdepth : traversal.maxDepth < traversal.minDepth
  · rw [if_pos hdepth]
    intro bound
    exact .inr ⟨_, .noDepth hdepth, rfl⟩
  · rw [if_neg hdepth]
    refine ((faults_edges traversal.target).map _).congr fun reason => ?_
    constructor
    · rintro ⟨htarget, rfl⟩
      exact .noEdges htarget
    · rintro (⟨_, hmem⟩ | hdepth' | htarget | _)
      · simp at hmem
      · exact absurd hdepth' hdepth
      · exact ⟨htarget, rfl⟩

theorem offends_filter_iff (condition : Condition) (reason : String) :
    QueryNode.Offends [] (.filter condition) reason ↔ condition.Lacks reason := by
  constructor
  · rintro (⟨_, hmem⟩ | _ | _ | hlacks)
    · simp at hmem
    · exact hlacks
  · exact .noCandidates

theorem faults_node (current : String) (node : QueryNode) :
    Faults (compileNode current node) node.kind (node.Offends []) := by
  -- on its own, only a condition or a walk can offend
  have hplain {node : QueryNode} (hfilter : ∀ condition, node ≠ .filter condition)
      (htraverse : ∀ traversal, node ≠ .traverse traversal) (reason : String) :
      False ↔ node.Offends [] reason := by
    refine ⟨False.elim, ?_⟩
    rintro (⟨_, hmem⟩ | _ | _ | _)
    · simp at hmem
    · exact htraverse _ rfl
    · exact htraverse _ rfl
    · exact hfilter _ rfl
  cases node with
  | filter condition =>
      exact ((faults_condition current condition).map _).congr fun reason =>
        (offends_filter_iff condition reason).symm
  | sort keys => exact (Faults.pure _).congr (hplain (by simp) (by simp))
  | limit offset count =>
      cases offset with
      | none => exact ((Faults.bind _ _).map _).congr (hplain (by simp) (by simp))
      | some offset =>
          exact ((Faults.bind _ _).seq fun _ => (Faults.bind _ _).map _).congr fun reason =>
            (or_iff_left id).trans (hplain (by simp) (by simp) reason)
  | project attributes row => exact (Faults.pure _).congr (hplain (by simp) (by simp))
  | traverse traversal => exact (faults_traversal current traversal).map _
  | join binding => exact ((Faults.bind _ _).map _).congr (hplain (by simp) (by simp))

/-- Nodes are compiled if none offends; otherwise the failure is about the first that does. -/
theorem compileNodes_cases (nodes : List QueryNode) (current : String) (bound : Bound) :
    (Unoffending nodes ∧ ∃ result, (compileNodes current nodes).run bound = .ok result) ∨
      ∃ node reason, FirstOffends nodes node reason ∧
        (compileNodes current nodes).run bound =
          .error (.unsupportedQuery node.kind reason) := by
  induction nodes generalizing current bound with
  | nil => exact .inl ⟨unoffending_nil, _, rfl⟩
  | cons node rest ih =>
      by_cases hproject : ∃ attributes row, node = .project attributes row
      · obtain ⟨attributes, row, rfl⟩ := hproject
        have halone := QueryNode.unoffending_project attributes row
        rw [compileNodes_project]
        cases rest with
        | nil => exact .inl ⟨halone, _, rfl⟩
        | cons next rest =>
            refine .inr ⟨next, _, ⟨[.project attributes row], rest, rfl, halone, ?_⟩, rfl⟩
            exact .behindProjection next List.mem_cons_self
      · have hplain : ∀ attributes row, node ≠ .project attributes row := fun attributes row heq =>
          hproject ⟨attributes, row, heq⟩
        rw [compileNodes_cons current rest hplain, StateT.run_bind]
        rcases faults_node current node bound with ⟨hnode, ⟨statements, middle⟩, hrun⟩ |
          ⟨reason, hnode, hrun⟩
        · rw [hrun, Outcome.ok_bind]
          dsimp only
          rw [StateT.run_bind]
          rcases ih ((node.current?.map (·.var)).getD current) middle with
            ⟨hrest, result, hrun⟩ | ⟨other, reason, hfirst, hrun⟩
          · rw [hrun]
            exact .inl ⟨(QueryNode.unoffending_cons_iff hplain).2 ⟨hnode, hrest⟩, _, rfl⟩
          · rw [hrun]
            exact .inr ⟨other, reason, QueryNode.firstOffends_cons hplain hnode hfirst, rfl⟩
        · rw [hrun]
          exact .inr ⟨node, reason, ⟨[], rest, rfl, unoffending_nil, hnode⟩, rfl⟩

end Aql

/-! ## Queries -/

namespace Query

/-- A query is compiled unless a node offends; if one does, the failure names the first that does,
and one of the reasons why it does. -/
theorem compile_cases (query : Query) :
    (Unoffending query.nodes ∧ ∃ compiled, query.compile = .ok compiled) ∨
      ∃ node reason, FirstOffends query.nodes node reason ∧
        query.compile = .error (.unsupportedQuery node.kind reason) := by
  unfold compile Aql.compileQuery
  rw [StateT.run_bind]
  obtain ⟨_, ⟨collection, middle⟩, hrun⟩ | ⟨_, hfalse, _⟩ :=
    (Aql.Faults.bind .collection (.string query.root.schema.name) : Aql.Faults _ "Query" _) []
  · rw [hrun, Outcome.ok_bind]
    dsimp only
    rw [StateT.run_bind]
    rcases Aql.compileNodes_cases query.nodes query.root.var middle with
      ⟨hnodes, result, hrun⟩ | ⟨node, reason, hfirst, hrun⟩
    · rw [hrun]
      exact .inl ⟨hnodes, _, rfl⟩
    · rw [hrun]
      exact .inr ⟨node, reason, hfirst, rfl⟩
  · exact hfalse.elim

/-- Compiling fails exactly if some node offends, and then with a failure that names the kind of the
first node that does. -/
theorem compile_unsupported_iff (query : Query) :
    ((∃ error, query.compile = .error error) ↔
      ∃ before node after reason, query.nodes = before ++ node :: after ∧
        node.Offends before reason) ∧
    ∀ error, query.compile = .error error → ∃ node reason,
      FirstOffends query.nodes node reason ∧ error = .unsupportedQuery node.kind reason := by
  rcases query.compile_cases with ⟨hnodes, compiled, hok⟩ | ⟨node, reason, hfirst, herror⟩
  · rw [hok]
    refine ⟨iff_of_false (by simp) ?_, by simp⟩
    rintro ⟨before, node, after, reason, hsplit, hoffends⟩
    exact hnodes before node after reason hsplit hoffends
  · rw [herror]
    refine ⟨iff_of_true ⟨_, rfl⟩ ?_, ?_⟩
    · obtain ⟨before, after, hsplit, _, hoffends⟩ := hfirst
      exact ⟨before, node, after, reason, hsplit, hoffends⟩
    · rintro error ⟨⟩
      exact ⟨node, reason, hfirst, rfl⟩

end Query

end DocGraph
