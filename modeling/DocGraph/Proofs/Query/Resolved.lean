import DocGraph.Proofs.Query.Meaning
/-!
# What the nodes of a query hold

The calls that build a query leave nothing open: every field in its nodes belongs to a variable and
has a path without gaps, every traversal knows where it starts, and every row has attributes with
names of their own.  Only the keys of a sort may be missing, exactly when a call gave none.
-/

namespace DocGraph

/-- A field that belongs to a variable and has a path of names, none of them empty. -/
structure FieldRef.IsResolved (field : FieldRef) : Prop where
  var : ∃ var, field.var? = some var ∧ Aql.isVariable var = true
  path : field.path ≠ []
  names : "" ∉ field.path

def Operand.IsResolved : Operand → Prop
  | .literal _ => True
  | .field found => found.IsResolved

namespace Condition

mutual
def IsResolved : Condition → Prop
  | .all parts => partsAreResolved parts
  | .any parts => partsAreResolved parts
  | .negation part => part.IsResolved
  | .presence field _ => field.IsResolved
  | .compare field _ operand => field.IsResolved ∧ operand.IsResolved
termination_by structural condition => condition

def partsAreResolved : List Condition → Prop
  | [] => True
  | part :: parts => part.IsResolved ∧ partsAreResolved parts
termination_by structural parts => parts
end

end Condition

def ProjectionSource.IsResolved : ProjectionSource → Prop
  | .field found => found.IsResolved
  | .var name => Aql.isVariable name = true

structure Projection.IsResolved (projection : Projection) : Prop where
  name : projection.name ≠ ""
  source : projection.source.IsResolved

namespace QueryNode

def IsResolved : QueryNode → Prop
  | filter condition => condition.IsResolved
  | sort keys => ∀ key ∈ keys, key.field.IsResolved
  | limit .. => True
  | project attributes _ => attributes ≠ [] ∧ ∀ projection ∈ attributes, projection.IsResolved
  | traverse traversal =>
    ∃ start, traversal.start? = some start ∧ Aql.isVariable start = true
  | join _ => True

def HasKeys : QueryNode → Prop
  | sort keys => keys ≠ []
  | _ => True

theorem eq_sort_nil_of_not_hasKeys {node : QueryNode} (h : ¬node.HasKeys) : node = .sort [] := by
  cases node with
  | sort keys => exact congrArg sort (Classical.not_not.1 h)
  | _ => exact absurd trivial h

end QueryNode

namespace Query

def Call.HasKeys : Call → Prop
  | sortBy keys => keys ≠ []
  | _ => True

variable {query after : Query}

/-! ## Fields -/

theorem resolvePath_eq_ok {schema : Schema} {path : List String} {type? : Option FieldType}
    (h : schema.resolvePath path = .ok type?) : path ≠ [] ∧ "" ∉ path := by
  unfold Schema.resolvePath at h
  by_cases hempty : "" ∈ path
  · rw [if_pos hempty] at h
    cases h
  · refine ⟨?_, hempty⟩
    rintro rfl
    simp [Schema.pathType?] at h

theorem isResolved_field (hnamed : query.IsNamed) {field resolved : FieldRef}
    (h : query.resolveField field = .ok resolved) : resolved.IsResolved := by
  have hpath : field.path ≠ [] ∧ "" ∉ field.path := by
    unfold resolveField at h
    dsimp only at h
    cases hbinding : query.binding? (field.var?.getD query.current.var) with
    | none => simp [hbinding] at h
    | some binding =>
        cases htype : binding.schema.resolvePath field.path with
        | error error => simp [hbinding, htype] at h
        | ok type? => exact resolvePath_eq_ok htype
  have hvar := hnamed.varOf h
  obtain ⟨_, rfl⟩ := resolveField_eq_ok h
  exact ⟨⟨query.varOf field, rfl, hvar⟩, hpath.1, hpath.2⟩

theorem isResolved_operand (hnamed : query.IsNamed) {operand resolved : Operand}
    (h : query.resolveOperand operand = .ok resolved) : resolved.IsResolved := by
  cases operand with
  | literal value =>
      obtain rfl := Except.ok.inj h
      trivial
  | field field =>
      obtain ⟨found, hfound, h⟩ := Outcome.bind_eq_ok_iff.1 h
      obtain rfl := Except.ok.inj h
      exact isResolved_field hnamed hfound

mutual
theorem isResolved_condition (hnamed : query.IsNamed) : (condition : Condition) →
    ∀ {resolved : Condition}, query.resolve condition = .ok resolved → resolved.IsResolved
  | .all parts, _, h => by
      obtain ⟨done, hdone, h⟩ := Outcome.bind_eq_ok_iff.1 h
      obtain rfl := Except.ok.inj h
      exact isResolved_parts hnamed parts hdone
  | .any parts, _, h => by
      obtain ⟨done, hdone, h⟩ := Outcome.bind_eq_ok_iff.1 h
      obtain rfl := Except.ok.inj h
      exact isResolved_parts hnamed parts hdone
  | .negation part, _, h => by
      obtain ⟨done, hdone, h⟩ := Outcome.bind_eq_ok_iff.1 h
      obtain rfl := Except.ok.inj h
      have hpart := isResolved_condition hnamed part hdone
      exact hpart
  | .presence _ _, _, h => by
      obtain ⟨found, hfound, h⟩ := Outcome.bind_eq_ok_iff.1 h
      obtain rfl := Except.ok.inj h
      exact isResolved_field hnamed hfound
  | .compare _ _ _, _, h => by
      obtain ⟨right, hright, h⟩ := Outcome.bind_eq_ok_iff.1 h
      obtain ⟨found, hfound, h⟩ := Outcome.bind_eq_ok_iff.1 h
      obtain rfl := Except.ok.inj h
      exact ⟨isResolved_field hnamed hfound, isResolved_operand hnamed hright⟩
termination_by structural condition => condition

theorem isResolved_parts (hnamed : query.IsNamed) : (parts : List Condition) →
    ∀ {resolved : List Condition}, query.resolveParts parts = .ok resolved →
      Condition.partsAreResolved resolved
  | [], _, h => by
      obtain rfl := Except.ok.inj h
      trivial
  | part :: parts, _, h => by
      obtain ⟨first, hfirst, h⟩ := Outcome.bind_eq_ok_iff.1 h
      obtain ⟨rest, hrest, h⟩ := Outcome.bind_eq_ok_iff.1 h
      obtain rfl := Except.ok.inj h
      exact ⟨isResolved_condition hnamed part hfirst, isResolved_parts hnamed parts hrest⟩
termination_by structural parts => parts
end

theorem isResolved_keys (hnamed : query.IsNamed) {keys resolved : List SortKey}
    (h : (keys.mapM fun key => do
      return (⟨← query.resolveField key.field, key.direction⟩ : SortKey)) = .ok resolved) :
    (∀ key ∈ resolved, key.field.IsResolved) ∧ (resolved = [] ↔ keys = []) := by
  induction keys generalizing resolved with
  | nil =>
      obtain rfl := Except.ok.inj h
      simp
  | cons key keys ih =>
      obtain ⟨first, rest, hfirst, hrest, rfl⟩ := Outcome.mapM_cons_eq_ok_iff.1 h
      obtain ⟨field, hfield, hfirst⟩ := Outcome.bind_eq_ok_iff.1 hfirst
      obtain rfl := Except.ok.inj hfirst
      refine ⟨?_, by simp⟩
      intro other hother
      rcases List.mem_cons.1 hother with rfl | hother
      · exact isResolved_field hnamed hfield
      · exact (ih hrest).1 other hother

theorem isResolved_source (hnamed : query.IsNamed) {source : ProjectionSource}
    {resolved : ProjectionSource × FieldType} (h : query.resolveSource source = .ok resolved) :
    resolved.1.IsResolved := by
  cases source with
  | field field =>
      obtain ⟨found, hfound, h⟩ := Outcome.bind_eq_ok_iff.1 h
      obtain rfl := Except.ok.inj h
      exact isResolved_field hnamed hfound
  | var name =>
      change (if (query.binding? name).isSome = true then _ else _) = _ at h
      by_cases hbound : (query.binding? name).isSome = true
      · rw [if_pos hbound] at h
        obtain rfl := Except.ok.inj h
        exact binding?_isVariable hnamed hbound
      · rw [if_neg hbound] at h
        cases h

theorem isResolved_attributes (hnamed : query.IsNamed) {names : List String}
    {projections : List Projection} {resolved : List (Projection × FieldType)}
    (h : query.resolveAttributes names projections = .ok resolved) :
    ∀ entry ∈ resolved, entry.1.IsResolved := by
  induction projections generalizing names resolved with
  | nil =>
      obtain rfl := Except.ok.inj h
      simp
  | cons projection rest ih =>
      unfold resolveAttributes at h
      by_cases hname : projection.name = "" ∨ projection.name ∈ names
      · rw [if_pos hname] at h
        cases h
      · rw [if_neg hname] at h
        obtain ⟨source, hsource, h⟩ := Outcome.bind_eq_ok_iff.1 h
        obtain ⟨others, hothers, h⟩ := Outcome.bind_eq_ok_iff.1 h
        obtain rfl := Except.ok.inj h
        intro entry hentry
        rcases List.mem_cons.1 hentry with rfl | hentry
        · exact ⟨(not_or.1 hname).1, isResolved_source hnamed hsource⟩
        · exact ih hothers entry hentry

/-! ## Calls -/

structure IsResolved (query : Query) : Prop where
  named : query.IsNamed
  nodes : ∀ node ∈ query.nodes, node.IsResolved

/-- The new node of a query is resolved, and sorts by keys exactly when the call gave some. -/
structure Extends (query after : Query) (hasKeys : Prop) : Prop where
  resolved : after.IsResolved
  hasKeys : (∀ node ∈ after.nodes, node.HasKeys) ↔ (∀ node ∈ query.nodes, node.HasKeys) ∧ hasKeys

theorem extends_push (h : query.IsResolved) {node : QueryNode} (hnamed : node.IsNamed)
    (hnode : node.IsResolved) : query.Extends (query.push node) node.HasKeys := by
  constructor
  · constructor
    · exact h.named.appendNodes (fun other hother => List.mem_singleton.1 hother ▸ hnamed)
    · intro other hother
      rcases List.mem_append.1 hother with hother | hother
      · exact h.nodes other hother
      · rw [List.mem_singleton.1 hother]
        exact hnode
  · simp [push, or_imp, forall_and]

theorem extends_filter (h : query.IsResolved) {condition : Condition}
    (hfilter : query.filter condition = .ok after) : query.Extends after True := by
  obtain ⟨resolved, hresolved, hpush⟩ := Outcome.bind_eq_ok_iff.1 hfilter
  obtain rfl := Except.ok.inj hpush
  exact extends_push h (by simp [QueryNode.IsNamed, QueryNode.bindings])
    (isResolved_condition h.named condition hresolved)

theorem extends_join (h : query.IsResolved) {var : String} {schema : Schema}
    (hjoin : query.join var schema = .ok after) : query.Extends after True := by
  obtain ⟨_, hvar, hpush⟩ := Outcome.bind_eq_ok_iff.1 hjoin
  obtain rfl := Except.ok.inj hpush
  refine extends_push h ?_ trivial
  intro binding hbinding
  rw [List.mem_singleton.1 hbinding]
  exact checkNewAlias_eq_ok hvar

theorem extends_project (h : query.IsResolved) {projections : List Projection}
    (hproject : query.project projections = .ok after) : query.Extends after True := by
  obtain ⟨resolved, hresolved, hpush⟩ := Outcome.bind_eq_ok_iff.1 hproject
  by_cases hempty : resolved.isEmpty = true
  · rw [if_pos hempty] at hpush
    cases hpush
  · rw [if_neg hempty] at hpush
    obtain rfl := Except.ok.inj hpush
    refine extends_push h (by simp [QueryNode.IsNamed, QueryNode.bindings]) ⟨?_, ?_⟩
    · simpa using hempty
    · intro projection hprojection
      obtain ⟨entry, hentry, rfl⟩ := List.mem_map.1 hprojection
      exact isResolved_attributes h.named hresolved entry hentry

theorem extends_apply (h : query.IsResolved) {call : Call}
    (hcall : call.apply query = .ok after) : query.Extends after call.HasKeys := by
  have hplain : ∀ node : QueryNode, node.bindings = [] → node.IsNamed := by
    intro node hnone
    simp [QueryNode.IsNamed, hnone]
  cases call with
  | filter condition => exact extends_filter h hcall
  | sortBy keys =>
      obtain ⟨resolved, hresolved, hpush⟩ := Outcome.bind_eq_ok_iff.1 hcall
      obtain rfl := Except.ok.inj hpush
      obtain ⟨hkeys, hempty⟩ := isResolved_keys h.named hresolved
      have hextends : query.Extends (query.push (.sort resolved)) (resolved ≠ []) :=
        extends_push h (hplain _ rfl) hkeys
      refine ⟨hextends.resolved, hextends.hasKeys.trans ?_⟩
      exact and_congr_right fun _ => not_congr hempty
  | limit count =>
      obtain rfl := Except.ok.inj hcall
      exact extends_push h (hplain _ rfl) trivial
  | slice offset count =>
      obtain rfl := Except.ok.inj hcall
      exact extends_push h (hplain _ rfl) trivial
  | project projections => exact extends_project h hcall
  | traverse traversal =>
      have hnamed := isNamed_traverse hcall
      obtain ⟨hstart, _, _, rfl⟩ := traverse_eq_ok_iff.1 hcall
      exact extends_push h hnamed ⟨_, rfl, binding?_isVariable h.named hstart⟩
  | join var schema => exact extends_join h hcall
  | joinOn var schema condition =>
      obtain ⟨joined, hjoined, hfilter⟩ := Outcome.bind_eq_ok_iff.1 hcall
      have hfirst := extends_join h hjoined
      have hsecond := extends_filter hfirst.resolved hfilter
      refine ⟨hsecond.resolved, hsecond.hasKeys.trans ?_⟩
      simpa [Call.HasKeys] using hfirst.hasKeys

/-- The nodes that some calls make are resolved, and have keys exactly when the calls do. -/
theorem extends_foldlM (h : query.IsResolved) {calls : List Call}
    (hcalls : calls.foldlM Call.apply query = .ok after) :
    query.Extends after (∀ call ∈ calls, call.HasKeys) := by
  induction calls generalizing query with
  | nil =>
      obtain rfl := Except.ok.inj hcalls
      exact ⟨h, by simp⟩
  | cons call calls ih =>
      rw [List.foldlM_cons] at hcalls
      obtain ⟨next, hnext, hcalls⟩ := Outcome.bind_eq_ok_iff.1 hcalls
      have hfirst := extends_apply h hnext
      have hrest := ih hfirst.resolved hcalls
      refine ⟨hrest.resolved, hrest.hasKeys.trans ?_⟩
      rw [hfirst.hasKeys, and_assoc, List.forall_mem_cons]

theorem nodes_start {start : Start} (h : start.query = .ok query) : query.nodes = [] := by
  cases start with
  | documents schema =>
      obtain rfl := Except.ok.inj h
      rfl
  | aliased schema var =>
      obtain ⟨_, _, h⟩ := Outcome.bind_eq_ok_iff.1 h
      obtain rfl := Except.ok.inj h
      rfl

/-- A query that was built is resolved, and its sorts have keys exactly when its calls gave some. -/
theorem isResolved_build {start : Start} {calls : List Call} (h : build start calls = .ok query) :
    query.IsResolved ∧
      ((∀ node ∈ query.nodes, node.HasKeys) ↔ ∀ call ∈ calls, call.HasKeys) := by
  obtain ⟨root, hroot, hcalls⟩ := Outcome.bind_eq_ok_iff.1 h
  have hnone := nodes_start hroot
  have hextends := extends_foldlM ⟨isNamed_start hroot, by simp [hnone]⟩ hcalls
  refine ⟨hextends.resolved, hextends.hasKeys.trans ?_⟩
  simp [hnone]

end Query

end DocGraph
