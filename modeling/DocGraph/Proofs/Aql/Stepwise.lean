import DocGraph.Proofs.Aql.Compile
import DocGraph.Proofs.Query.Blank
/-!
# Compiling step by step

Compiling is made of four kinds of steps: it gives a result, fails, does one thing after another
or binds a value.  What holds of these steps, even when the values are others, holds of every
query and its blanked form.
-/

namespace DocGraph.Aql

/-- A relation between compilations that every step respects, whatever values are bound. -/
structure Stepwise (P : (α : Type) → Compile α → Compile α → Prop) : Prop where
  of_pure : ∀ {α : Type} (a : α), P α (pure a) (pure a)
  of_throw : ∀ {α : Type} (error : Error) (second : Compile α), P α (throw error) second
  bind : ∀ {α β : Type} {first second : Compile α} {next next' : α → Compile β},
    P α first second → (∀ a, P β (next a) (next' a)) → P β (first >>= next) (second >>= next')
  of_bind : ∀ (kind : ParameterKind) (value value' : Json),
    P Parameter (Aql.bind kind value) (Aql.bind kind value')

variable {P : (α : Type) → Compile α → Compile α → Prop}

theorem Stepwise.mapM (h : Stepwise P) {α β : Type} {f g : α → Compile β} {blank : α → α}
    (hfg : ∀ a, P β (f a) (g (blank a))) (items : List α) :
    P (List β) (items.mapM f) ((items.map blank).mapM g) := by
  induction items with
  | nil => exact h.of_pure []
  | cons item items ih =>
      rw [List.map_cons, List.mapM_cons, List.mapM_cons]
      apply h.bind (hfg item)
      intro b
      apply h.bind ih
      intro bs
      exact h.of_pure (b :: bs)

/-! ## Conditions -/

theorem Stepwise.compileOperand_related (h : Stepwise P) (current : String) (operand : Operand) :
    P _ (compileOperand current operand) (compileOperand current operand.blank) := by
  cases operand with
  | literal value =>
      apply h.bind (h.of_bind .value _ _)
      intro parameter
      exact h.of_pure (Term.parameter parameter)
  | field field => exact h.of_pure (Term.access (access current field))

theorem lacksCandidates_blank (operator : Operator) (operand : Operand) :
    lacksCandidates operator operand.blank = false := by
  cases operand with
  | literal value => simp [Operand.blank, lacksCandidates, Json.isArray]
  | field field => rfl

theorem Stepwise.group_related (h : Stepwise P) (connective : Connective) (parts : List Formula) :
    P _ (group connective parts) (group connective parts) := by
  match parts with
  | [] =>
      apply h.bind (h.of_bind .value _ _)
      intro parameter
      exact h.of_pure (Formula.truth parameter)
  | [part] => exact h.of_pure part
  | first :: second :: rest =>
      exact h.of_pure (Formula.group connective (first :: second :: rest))

mutual
theorem Stepwise.compileCondition_related (h : Stepwise P) (current : String) :
    (condition : Condition) →
      P _ (compileCondition current condition) (compileCondition current condition.blank)
  | .all parts => by
      apply h.bind (h.compileConditions_related current parts)
      exact h.group_related .and
  | .any parts => by
      apply h.bind (h.compileConditions_related current parts)
      exact h.group_related .or
  | .negation part => by
      apply h.bind (h.compileCondition_related current part)
      intro formula
      exact h.of_pure (Formula.negation formula)
  | .presence field isPresent =>
      h.of_pure (Formula.presence (access current field) isPresent)
  | .compare field operator operand => by
      have hright := h.bind (h.compileOperand_related current operand) fun right =>
        h.of_pure (Formula.compare (access current field) field.isList operator right)
      simp only [Condition.blank, compileCondition]
      rw [lacksCandidates_blank]
      split
      · exact h.of_throw _ _
      · exact hright
termination_by structural condition => condition

theorem Stepwise.compileConditions_related (h : Stepwise P) (current : String) :
    (parts : List Condition) → P _ (compileConditions current parts)
      (compileConditions current (Condition.blankParts parts))
  | [] => h.of_pure []
  | part :: parts => by
      apply h.bind (h.compileCondition_related current part)
      intro formula
      apply h.bind (h.compileConditions_related current parts)
      intro formulas
      exact h.of_pure (formula :: formulas)
termination_by structural parts => parts
end

/-! ## Nodes -/

theorem Stepwise.compileEdges_related (h : Stepwise P) (target : TraversalTarget) :
    P _ (compileEdges target) (compileEdges target.blank) := by
  cases target with
  | graph name =>
      apply h.bind (h.of_bind .graph _ _)
      intro parameter
      exact h.of_pure (TraversalEdges.graph parameter)
  | edgeCollections names =>
      have hnames : P _ (names.mapM fun name => Aql.bind .edges (.string name))
          ((names.map fun _ => "").mapM fun name => Aql.bind .edges (.string name)) :=
        h.mapM (fun name => h.of_bind .edges (.string name) (.string "")) names
      have hbound := h.bind hnames fun parameters =>
        h.of_pure (TraversalEdges.collections parameters)
      simp only [TraversalTarget.blank, compileEdges]
      rw [List.isEmpty_map]
      split
      · exact h.of_throw _ _
      · exact hbound

theorem Stepwise.compileTraversal_related (h : Stepwise P) (current : String)
    (traversal : Traversal) :
    P _ (compileTraversal current traversal) (compileTraversal current traversal.blank) := by
  have hvars : traversal.blank.edge?.map (·.var) = traversal.edge?.map (·.var) := by
    cases hedge : traversal.edge? <;> simp [Traversal.blank, Binding.blank, hedge]
  have hedges := h.bind (h.compileEdges_related traversal.target) fun edges =>
    h.of_pure (Statement.traverse traversal.vertex.var (traversal.edge?.map (·.var))
      traversal.minDepth traversal.maxDepth traversal.direction
      (traversal.start?.getD current) edges)
  unfold compileTraversal
  rw [hvars]
  change P _ (if traversal.maxDepth < traversal.minDepth then _ else _)
    (if traversal.maxDepth < traversal.minDepth then _ else _)
  by_cases hdepth : traversal.maxDepth < traversal.minDepth
  · rw [if_pos hdepth]
    exact h.of_throw _ _
  · rw [if_neg hdepth, if_neg hdepth]
    exact hedges

theorem Stepwise.compileNode_related (h : Stepwise P) (current : String) (node : QueryNode) :
    P _ (compileNode current node) (compileNode current node.blank) := by
  cases node with
  | filter condition =>
      apply h.bind (h.compileCondition_related current condition)
      intro formula
      exact h.of_pure [Statement.filter formula]
  | sort keys => exact h.of_pure _
  | limit offset count =>
      cases offset with
      | none =>
          apply h.bind (h.of_bind .count _ _)
          intro counted
          exact h.of_pure [Statement.limit none counted]
      | some offset =>
          apply h.bind (h.of_bind .offset _ _)
          intro skipped
          apply h.bind (h.of_bind .count _ _)
          intro counted
          exact h.of_pure [Statement.limit (some skipped) counted]
  | project attributes row => exact h.of_pure []
  | traverse traversal =>
      apply h.bind (h.compileTraversal_related current traversal)
      intro statement
      exact h.of_pure [statement]
  | join binding =>
      apply h.bind (h.of_bind .collection _ _)
      intro collection
      exact h.of_pure [Statement.forEach binding.var collection]

theorem current?_var_blank (node : QueryNode) :
    node.blank.current?.map (·.var) = node.current?.map (·.var) := by
  cases node <;> rfl

theorem Stepwise.compileNodes_related (h : Stepwise P) (current : String) (nodes : List QueryNode) :
    P _ (compileNodes current nodes) (compileNodes current (nodes.map QueryNode.blank)) := by
  induction nodes generalizing current with
  | nil => exact h.of_pure _
  | cons node rest ih =>
      rw [List.map_cons]
      by_cases hproject : ∃ attributes row, node = .project attributes row
      · obtain ⟨attributes, row, rfl⟩ := hproject
        rw [QueryNode.blank, compileNodes_project, compileNodes_project]
        cases rest with
        | nil => exact h.of_pure _
        | cons next rest => exact h.of_throw _ _
      · have hplain : ∀ attributes row, node ≠ .project attributes row := fun attributes row h =>
          hproject ⟨attributes, row, h⟩
        have hblank : ∀ attributes row, node.blank ≠ .project attributes row := by
          intro attributes row h
          cases node <;> simp_all [QueryNode.blank]
        rw [compileNodes_cons current rest hplain, compileNodes_cons current _ hblank,
          current?_var_blank]
        apply h.bind (h.compileNode_related current node)
        intro statements
        apply h.bind (ih _)
        intro program
        exact h.of_pure _

theorem Stepwise.compileQuery_related (h : Stepwise P) (query : Query) :
    P _ (compileQuery query) (compileQuery query.blank) := by
  apply h.bind (h.of_bind .collection _ _)
  intro collection
  apply h.bind (h.compileNodes_related query.root.var query.nodes)
  intro program
  exact h.of_pure _

end DocGraph.Aql
