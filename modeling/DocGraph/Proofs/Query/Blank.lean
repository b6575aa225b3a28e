import DocGraph.Proofs.Outcome
import DocGraph.Proofs.Query.Calls
/-!
# Queries without their data

Blanking replaces the data of a query by fixed data and keeps the shape.  Calls that succeed also
succeed with blanked data, and what they build is the blanked query: no check reads the
data, and no field is resolved by it.
-/

namespace DocGraph

/-! ## Blanking -/

def Schema.blank (schema : Schema) : Schema := { schema with name := "" }

def Binding.blank (binding : Binding) : Binding := { binding with schema := binding.schema.blank }

/-- A literal becomes an empty array, which no operator refuses. -/
def Operand.blank : Operand → Operand
  | literal _ => literal (.array [])
  | field f => field f

mutual
def Condition.blank : Condition → Condition
  | .all parts => .all (Condition.blankParts parts)
  | .any parts => .any (Condition.blankParts parts)
  | .negation part => .negation part.blank
  | .presence field isPresent => .presence field isPresent
  | .compare field operator operand => .compare field operator operand.blank
termination_by structural condition => condition

def Condition.blankParts : List Condition → List Condition
  | [] => []
  | part :: parts => part.blank :: Condition.blankParts parts
termination_by structural parts => parts
end

def TraversalTarget.blank : TraversalTarget → TraversalTarget
  | graph _ => graph ""
  | edgeCollections names => edgeCollections (names.map fun _ => "")

def Traversal.blank (traversal : Traversal) : Traversal :=
  { traversal with
    target := traversal.target.blank
    vertex := traversal.vertex.blank
    edge? := traversal.edge?.map Binding.blank }

/-- Rows are named after the root, so their name is blanked as well. -/
def QueryNode.blank : QueryNode → QueryNode
  | filter condition => filter condition.blank
  | sort keys => sort keys
  | limit offset _ => limit (offset.map fun _ => 0) 0
  | project attributes row => project attributes { row with name := "#projection" }
  | traverse traversal => traverse traversal.blank
  | join binding => join binding.blank

def Query.blank (query : Query) : Query :=
  ⟨query.root.blank, query.nodes.map QueryNode.blank⟩

namespace Query

def Start.blank : Start → Start
  | documents schema => documents schema.blank
  | aliased schema var => aliased schema.blank var

def Call.blank : Call → Call
  | filter condition => filter condition.blank
  | sortBy keys => sortBy keys
  | limit _ => limit 0
  | slice _ _ => slice 0 0
  | project projections => project projections
  | traverse traversal => traverse traversal.blank
  | join var schema => join var schema.blank
  | joinOn var schema condition => joinOn var schema.blank condition.blank

/-! ## What is bound -/

theorem blank_push (query : Query) (node : QueryNode) :
    (query.push node).blank = query.blank.push node.blank := by
  simp [push, blank]

theorem bindings_blank_node (node : QueryNode) :
    node.blank.bindings = node.bindings.map Binding.blank := by
  cases node with
  | traverse traversal =>
      cases hedge : traversal.edge? <;>
        simp [QueryNode.blank, QueryNode.bindings, Traversal.blank, hedge]
  | _ => rfl

theorem bindings_blank (query : Query) :
    query.blank.bindings = query.bindings.map Binding.blank := by
  have hnodes : (fun node : QueryNode => node.blank.bindings)
      = fun node => node.bindings.map Binding.blank := funext bindings_blank_node
  unfold bindings blank
  rw [List.map_cons, List.map_flatMap, List.flatMap_map, hnodes]

theorem current?_blank (node : QueryNode) :
    node.blank.current? = node.current?.map Binding.blank := by
  cases node <;> rfl

theorem current_blank (query : Query) : query.blank.current = query.current.blank := by
  have hnodes : ∀ nodes : List QueryNode,
      (nodes.map QueryNode.blank).findSome? QueryNode.current?
        = (nodes.findSome? QueryNode.current?).map Binding.blank := by
    intro nodes
    induction nodes with
    | nil => rfl
    | cons node nodes ih =>
        rw [List.map_cons, List.findSome?_cons, List.findSome?_cons, current?_blank, ih]
        cases node.current? <;> rfl
  unfold current blank
  rw [← List.map_reverse, hnodes]
  cases query.nodes.reverse.findSome? QueryNode.current? <;> rfl

theorem binding?_blank (query : Query) (var : String) :
    query.blank.binding? var = (query.binding? var).map Binding.blank := by
  unfold binding?
  rw [bindings_blank, List.find?_map]
  rfl

/-! ## Resolving -/

theorem resolvePath_blank {schema : Schema} {path : List String} {type? : Option FieldType}
    (h : schema.resolvePath path = .ok type?) : schema.blank.resolvePath path = .ok type? := by
  have hpath : schema.blank.pathType? path = schema.pathType? path := by
    cases path with
    | nil => rfl
    | cons name rest =>
        unfold Schema.pathType?
        rfl
  unfold Schema.resolvePath at h ⊢
  rw [hpath]
  split at h
  · exact h
  · simp at h

variable {query : Query}

theorem resolveField_blank {field resolved : FieldRef}
    (h : query.resolveField field = .ok resolved) :
    query.blank.resolveField field = .ok resolved := by
  unfold resolveField at h ⊢
  have hvar : query.blank.current.var = query.current.var := by rw [current_blank]; rfl
  rw [hvar]
  dsimp only at h ⊢
  rw [binding?_blank]
  cases hbinding : query.binding? (field.var?.getD query.current.var) with
  | none => simp [hbinding] at h
  | some binding =>
      rw [hbinding] at h
      dsimp only [Option.map_some] at h ⊢
      cases hpath : binding.schema.resolvePath field.path with
      | error _ => simp [hpath] at h
      | ok type? =>
          rw [hpath] at h
          rw [show binding.blank.schema = binding.schema.blank from rfl, resolvePath_blank hpath]
          exact h

theorem resolveOperand_blank {operand resolved : Operand}
    (h : query.resolveOperand operand = .ok resolved) :
    query.blank.resolveOperand operand.blank = .ok resolved.blank := by
  cases operand with
  | literal value =>
      obtain rfl := Except.ok.inj h
      rfl
  | field field =>
      obtain ⟨found, hfound, h⟩ := Outcome.bind_eq_ok_iff.1 h
      obtain rfl := Except.ok.inj h
      simp [Operand.blank, resolveOperand, resolveField_blank hfound]

mutual
theorem resolve_blank : (condition : Condition) → ∀ {resolved : Condition},
    query.resolve condition = .ok resolved →
      query.blank.resolve condition.blank = .ok resolved.blank
  | .all parts, _, h => by
      obtain ⟨done, hdone, h⟩ := Outcome.bind_eq_ok_iff.1 h
      obtain rfl := Except.ok.inj h
      simp [Condition.blank, resolve, resolveParts_blank parts hdone]
  | .any parts, _, h => by
      obtain ⟨done, hdone, h⟩ := Outcome.bind_eq_ok_iff.1 h
      obtain rfl := Except.ok.inj h
      simp [Condition.blank, resolve, resolveParts_blank parts hdone]
  | .negation part, _, h => by
      obtain ⟨done, hdone, h⟩ := Outcome.bind_eq_ok_iff.1 h
      obtain rfl := Except.ok.inj h
      simp [Condition.blank, resolve, resolve_blank part hdone]
  | .presence field isPresent, _, h => by
      obtain ⟨found, hfound, h⟩ := Outcome.bind_eq_ok_iff.1 h
      obtain rfl := Except.ok.inj h
      simp [Condition.blank, resolve, resolveField_blank hfound]
  | .compare field operator operand, _, h => by
      obtain ⟨right, hright, h⟩ := Outcome.bind_eq_ok_iff.1 h
      obtain ⟨found, hfound, h⟩ := Outcome.bind_eq_ok_iff.1 h
      obtain rfl := Except.ok.inj h
      simp [Condition.blank, resolve, resolveOperand_blank hright, resolveField_blank hfound]
termination_by structural condition => condition

theorem resolveParts_blank : (parts : List Condition) → ∀ {resolved : List Condition},
    query.resolveParts parts = .ok resolved →
      query.blank.resolveParts (Condition.blankParts parts)
        = .ok (Condition.blankParts resolved)
  | [], _, h => by
      obtain rfl := Except.ok.inj h
      rfl
  | part :: parts, _, h => by
      obtain ⟨first, hfirst, h⟩ := Outcome.bind_eq_ok_iff.1 h
      obtain ⟨rest, hrest, h⟩ := Outcome.bind_eq_ok_iff.1 h
      obtain rfl := Except.ok.inj h
      simp [Condition.blankParts, resolveParts, resolve_blank part hfirst,
        resolveParts_blank parts hrest]
termination_by structural parts => parts
end

/-! ## Calls -/

theorem filter_blank {condition : Condition} {after : Query}
    (h : query.filter condition = .ok after) :
    query.blank.filter condition.blank = .ok after.blank := by
  obtain ⟨resolved, hresolved, h⟩ := Outcome.bind_eq_ok_iff.1 h
  obtain rfl := Except.ok.inj h
  rw [blank_push]
  simp [filter, resolve_blank condition hresolved, QueryNode.blank]

theorem sortBy_blank {keys : List SortKey} {after : Query}
    (h : query.sortBy keys = .ok after) : query.blank.sortBy keys = .ok after.blank := by
  obtain ⟨resolved, hresolved, h⟩ := Outcome.bind_eq_ok_iff.1 h
  obtain rfl := Except.ok.inj h
  unfold sortBy
  rw [Outcome.mapM_eq_ok_of_forall ?_ hresolved, blank_push]
  · rfl
  · intro key resolvedKey hkey
    obtain ⟨field, hfield, hkey⟩ := Outcome.bind_eq_ok_iff.1 hkey
    rw [resolveField_blank hfield]
    exact hkey

theorem binding?_blank_isSome (query : Query) (var : String) :
    (query.blank.binding? var).isSome = (query.binding? var).isSome := by
  rw [binding?_blank, Option.isSome_map]

theorem resolveSource_blank {source resolved : ProjectionSource} {type : FieldType}
    (h : query.resolveSource source = .ok (resolved, type)) :
    query.blank.resolveSource source = .ok (resolved, type) := by
  cases source with
  | field field =>
      obtain ⟨found, hfound, h⟩ := Outcome.bind_eq_ok_iff.1 h
      simp only [resolveSource, resolveField_blank hfound]
      exact h
  | var name =>
      simp only [resolveSource] at h ⊢
      rw [binding?_blank_isSome]
      exact h

theorem resolveAttributes_blank {projections : List Projection} {names : List String}
    {resolved : List (Projection × FieldType)}
    (h : query.resolveAttributes names projections = .ok resolved) :
    query.blank.resolveAttributes names projections = .ok resolved := by
  induction projections generalizing names resolved with
  | nil => exact h
  | cons projection projections ih =>
      unfold resolveAttributes at h ⊢
      split at h
      · simp at h
      · rename_i hfresh
        rw [if_neg hfresh]
        obtain ⟨⟨source, type⟩, hsource, h⟩ := Outcome.bind_eq_ok_iff.1 h
        obtain ⟨rest, hrest, h⟩ := Outcome.bind_eq_ok_iff.1 h
        simp only [Outcome.ok_bind, Outcome.pure_eq_ok, resolveSource_blank hsource, ih hrest]
        exact h

theorem project_blank {projections : List Projection} {after : Query}
    (h : query.project projections = .ok after) :
    query.blank.project projections = .ok after.blank := by
  obtain ⟨attributes, hattributes, h⟩ := Outcome.bind_eq_ok_iff.1 h
  unfold project
  rw [resolveAttributes_blank hattributes, Outcome.ok_bind]
  split at h
  · simp at h
  · rename_i hsome
    rw [if_neg hsome]
    obtain rfl := Except.ok.inj h
    rw [blank_push]
    rfl

theorem checkNewAlias_blank (query : Query) (node var : String) :
    query.blank.checkNewAlias node var = query.checkNewAlias node var := by
  unfold checkNewAlias
  rw [binding?_blank_isSome]

theorem traverse_blank {traversal : Traversal} {after : Query}
    (h : query.traverse traversal = .ok after) :
    query.blank.traverse traversal.blank = .ok after.blank := by
  have hstart : query.blank.startOf traversal.blank = query.startOf traversal := by
    unfold startOf
    rw [current_blank]
    rfl
  obtain ⟨hbound, hvertex, hedge, rfl⟩ := traverse_eq_ok_iff.1 h
  rw [traverse_eq_ok_iff, hstart, binding?_blank_isSome, blank_push]
  refine ⟨hbound, ?_, ?_, rfl⟩
  · rw [checkNewAlias_blank]
    exact hvertex
  · intro edge hblank
    obtain ⟨original, horiginal, rfl⟩ := Option.map_eq_some_iff.1 hblank
    rw [checkNewAlias_blank]
    exact hedge original horiginal

theorem join_blank {var : String} {schema : Schema} {after : Query}
    (h : query.join var schema = .ok after) :
    query.blank.join var schema.blank = .ok after.blank := by
  obtain ⟨_, hfresh, h⟩ := Outcome.bind_eq_ok_iff.1 h
  obtain rfl := Except.ok.inj h
  unfold join
  rw [checkNewAlias_blank, hfresh, blank_push]
  rfl

theorem apply_blank {call : Call} {after : Query} (h : call.apply query = .ok after) :
    call.blank.apply query.blank = .ok after.blank := by
  cases call with
  | filter condition => exact filter_blank h
  | sortBy keys => exact sortBy_blank h
  | limit count =>
      obtain rfl := Except.ok.inj h
      exact congrArg Except.ok (blank_push query (.limit none count)).symm
  | slice offset count =>
      obtain rfl := Except.ok.inj h
      exact congrArg Except.ok (blank_push query (.limit (some offset) count)).symm
  | project projections => exact project_blank h
  | traverse traversal => exact traverse_blank h
  | join var schema => exact join_blank h
  | joinOn var schema condition =>
      obtain ⟨joined, hjoined, h⟩ := Outcome.bind_eq_ok_iff.1 h
      simp only [Call.blank, Call.apply, joinOn]
      rw [join_blank hjoined, Outcome.ok_bind, filter_blank h]

theorem start_blank {start : Start} (h : start.query = .ok query) :
    start.blank.query = .ok query.blank := by
  cases start with
  | documents schema =>
      obtain rfl := Except.ok.inj h
      rfl
  | aliased schema var =>
      obtain ⟨_, hvar, h⟩ := Outcome.bind_eq_ok_iff.1 h
      obtain rfl := Except.ok.inj h
      simp only [Start.blank, Start.query, withAlias]
      rw [hvar]
      rfl

theorem foldlM_apply_blank {calls : List Call} {after : Query}
    (h : calls.foldlM Call.apply query = .ok after) :
    (calls.map Call.blank).foldlM Call.apply query.blank = .ok after.blank := by
  induction calls generalizing query with
  | nil =>
      obtain rfl := Except.ok.inj h
      rfl
  | cons call calls ih =>
      rw [List.foldlM_cons] at h
      obtain ⟨next, hnext, h⟩ := Outcome.bind_eq_ok_iff.1 h
      rw [List.map_cons, List.foldlM_cons, apply_blank hnext, Outcome.ok_bind]
      exact ih h

/-- Calls that build a query build the blanked query of blanked data. -/
theorem build_blank {start : Start} {calls : List Call}
    (h : build start calls = .ok query) :
    build start.blank (calls.map Call.blank) = .ok query.blank := by
  obtain ⟨root, hroot, h⟩ := Outcome.bind_eq_ok_iff.1 h
  unfold build
  rw [start_blank hroot, Outcome.ok_bind]
  exact foldlM_apply_blank h

end Query

end DocGraph
