import DocGraph.Proofs.Query.Resolved
import Mathlib.Data.List.Forall2
/-!
# What the nodes of a query may refer to

Every alias is bound once.  Whatever a node refers to was bound before it, and a field has a path
that the schema of its alias knows; so nothing that is added behind a node changes what the node
is about.
-/

namespace DocGraph

/-! ## The fields of a condition -/

def Operand.fields : Operand → List FieldRef
  | .literal _ => []
  | .field found => [found]

mutual
def Condition.fields : Condition → List FieldRef
  | .all parts => Condition.fieldsOf parts
  | .any parts => Condition.fieldsOf parts
  | .negation part => part.fields
  | .presence field _ => [field]
  | .compare field _ operand => field :: operand.fields
termination_by structural condition => condition

def Condition.fieldsOf : List Condition → List FieldRef
  | [] => []
  | part :: parts => part.fields ++ Condition.fieldsOf parts
termination_by structural parts => parts
end

namespace Query

variable {query after : Query}

abbrev Resolves (query : Query) (field resolved : FieldRef) : Prop :=
  query.resolveField field = .ok resolved

theorem resolves_operand {operand resolved : Operand}
    (h : query.resolveOperand operand = .ok resolved) :
    List.Forall₂ query.Resolves operand.fields resolved.fields := by
  cases operand with
  | literal value =>
      obtain rfl := Except.ok.inj h
      exact .nil
  | field field =>
      obtain ⟨found, hfound, h⟩ := Outcome.bind_eq_ok_iff.1 h
      obtain rfl := Except.ok.inj h
      exact .cons hfound .nil

mutual
theorem resolves_condition : (condition : Condition) → ∀ {resolved : Condition},
    query.resolve condition = .ok resolved →
      List.Forall₂ query.Resolves condition.fields resolved.fields
  | .all parts, _, h => by
      obtain ⟨done, hdone, h⟩ := Outcome.bind_eq_ok_iff.1 h
      obtain rfl := Except.ok.inj h
      exact resolves_parts parts hdone
  | .any parts, _, h => by
      obtain ⟨done, hdone, h⟩ := Outcome.bind_eq_ok_iff.1 h
      obtain rfl := Except.ok.inj h
      exact resolves_parts parts hdone
  | .negation part, _, h => by
      obtain ⟨done, hdone, h⟩ := Outcome.bind_eq_ok_iff.1 h
      obtain rfl := Except.ok.inj h
      have hpart := resolves_condition part hdone
      exact hpart
  | .presence _ _, _, h => by
      obtain ⟨found, hfound, h⟩ := Outcome.bind_eq_ok_iff.1 h
      obtain rfl := Except.ok.inj h
      exact .cons hfound .nil
  | .compare _ _ _, _, h => by
      obtain ⟨right, hright, h⟩ := Outcome.bind_eq_ok_iff.1 h
      obtain ⟨found, hfound, h⟩ := Outcome.bind_eq_ok_iff.1 h
      obtain rfl := Except.ok.inj h
      exact .cons hfound (resolves_operand hright)
termination_by structural condition => condition

theorem resolves_parts : (parts : List Condition) → ∀ {resolved : List Condition},
    query.resolveParts parts = .ok resolved →
      List.Forall₂ query.Resolves (Condition.fieldsOf parts) (Condition.fieldsOf resolved)
  | [], _, h => by
      obtain rfl := Except.ok.inj h
      exact .nil
  | part :: parts, _, h => by
      obtain ⟨first, hfirst, h⟩ := Outcome.bind_eq_ok_iff.1 h
      obtain ⟨rest, hrest, h⟩ := Outcome.bind_eq_ok_iff.1 h
      obtain rfl := Except.ok.inj h
      exact List.rel_append (resolves_condition part hfirst) (resolves_parts parts hrest)
termination_by structural parts => parts
end

theorem resolves_keys {keys resolved : List SortKey}
    (h : (keys.mapM fun key => do
      return (⟨← query.resolveField key.field, key.direction⟩ : SortKey)) = .ok resolved) :
    List.Forall₂ query.Resolves (keys.map (·.field)) (resolved.map (·.field)) := by
  induction keys generalizing resolved with
  | nil =>
      obtain rfl := Except.ok.inj h
      exact .nil
  | cons key keys ih =>
      obtain ⟨first, rest, hfirst, hrest, rfl⟩ := Outcome.mapM_cons_eq_ok_iff.1 h
      obtain ⟨field, hfield, hfirst⟩ := Outcome.bind_eq_ok_iff.1 hfirst
      obtain rfl := Except.ok.inj hfirst
      exact .cons hfield (ih hrest)

end Query

/-! ## Scopes -/

/-- A field of an alias that is bound, with a path that the schema of the alias knows. -/
def FieldRef.IsBoundIn (scope : List Binding) (field : FieldRef) : Prop :=
  ∃ binding ∈ scope, field.var? = some binding.var ∧
    ∃ type?, binding.schema.resolvePath field.path = .ok type?

def ProjectionSource.IsBoundIn (scope : List Binding) : ProjectionSource → Prop
  | .field found => found.IsBoundIn scope
  | .var name => ∃ binding ∈ scope, binding.var = name

namespace QueryNode

def IsScoped (scope : List Binding) : QueryNode → Prop
  | filter condition => ∀ field ∈ condition.fields, field.IsBoundIn scope
  | sort keys => ∀ key ∈ keys, key.field.IsBoundIn scope
  | limit .. => True
  | project attributes _ => ∀ projection ∈ attributes, projection.source.IsBoundIn scope
  | traverse traversal => ∃ binding ∈ scope, traversal.start? = some binding.var
  | join _ => True

def AreScoped : List Binding → List QueryNode → Prop
  | _, [] => True
  | scope, node :: rest => node.IsScoped scope ∧ AreScoped (scope ++ node.bindings) rest

theorem areScoped_append {scope : List Binding} {nodes more : List QueryNode} :
    AreScoped scope (nodes ++ more) ↔
      AreScoped scope nodes ∧ AreScoped (scope ++ nodes.flatMap bindings) more := by
  induction nodes generalizing scope with
  | nil => simp [AreScoped]
  | cons node nodes ih => simp [AreScoped, ih, and_assoc]

end QueryNode

namespace Query

variable {query after : Query}

theorem mem_of_binding? {var : String} {binding : Binding} (h : query.binding? var = some binding) :
    binding ∈ query.bindings ∧ binding.var = var := by
  have hvar := List.find?_some h
  exact ⟨List.mem_of_find?_eq_some h, eq_of_beq hvar⟩

theorem mem_bindings_of_current? {node : QueryNode} {binding : Binding}
    (h : node.current? = some binding) : binding ∈ node.bindings := by
  cases node with
  | join joined => exact Option.some.inj h ▸ List.mem_cons_self
  | traverse traversal => exact Option.some.inj h ▸ List.mem_cons_self
  | _ => cases h

theorem current_mem_bindings (query : Query) : query.current ∈ query.bindings := by
  unfold current bindings
  cases hfound : query.nodes.reverse.findSome? QueryNode.current? with
  | none => exact List.mem_cons_self
  | some binding =>
      obtain ⟨node, hnode, hcurrent⟩ := List.exists_of_findSome?_eq_some hfound
      refine List.mem_cons_of_mem _ (List.mem_flatMap.2 ⟨node, List.mem_reverse.1 hnode, ?_⟩)
      exact mem_bindings_of_current? hcurrent

theorem Resolves.isBoundIn {field resolved : FieldRef} (h : query.Resolves field resolved) :
    resolved.IsBoundIn query.bindings := by
  unfold Resolves resolveField at h
  dsimp only at h
  cases hbinding : query.binding? (field.var?.getD query.current.var) with
  | none => simp [hbinding] at h
  | some binding =>
      obtain ⟨hmem, hvar⟩ := mem_of_binding? hbinding
      cases htype : binding.schema.resolvePath field.path with
      | error error => simp [hbinding, htype] at h
      | ok type? =>
          simp only [hbinding, htype] at h
          obtain rfl := Except.ok.inj h
          exact ⟨binding, hmem, congrArg some hvar.symm, type?, htype⟩

theorem isBoundIn_of_resolves {fields resolved : List FieldRef}
    (h : List.Forall₂ query.Resolves fields resolved) :
    ∀ field ∈ resolved, field.IsBoundIn query.bindings := by
  induction h with
  | nil => simp
  | cons hfirst _ ih => exact List.forall_mem_cons.2 ⟨hfirst.isBoundIn, ih⟩

theorem isBoundIn_source {source : ProjectionSource} {resolved : ProjectionSource × FieldType}
    (h : query.resolveSource source = .ok resolved) : resolved.1.IsBoundIn query.bindings := by
  cases source with
  | field field =>
      obtain ⟨found, hfound, h⟩ := Outcome.bind_eq_ok_iff.1 h
      obtain rfl := Except.ok.inj h
      exact Resolves.isBoundIn hfound
  | var name =>
      change (if (query.binding? name).isSome = true then _ else _) = _ at h
      by_cases hbound : (query.binding? name).isSome = true
      · rw [if_pos hbound] at h
        obtain rfl := Except.ok.inj h
        obtain ⟨binding, hbinding⟩ := Option.isSome_iff_exists.1 hbound
        exact ⟨binding, mem_of_binding? hbinding⟩
      · rw [if_neg hbound] at h
        cases h

theorem isBoundIn_attributes {names : List String} {projections : List Projection}
    {resolved : List (Projection × FieldType)}
    (h : query.resolveAttributes names projections = .ok resolved) :
    ∀ entry ∈ resolved, entry.1.source.IsBoundIn query.bindings := by
  induction projections generalizing names resolved with
  | nil =>
      obtain rfl := Except.ok.inj h
      simp
  | cons projection rest ih =>
      unfold resolveAttributes at h
      by_cases hname : projection.name = "" ∨ projection.name ∈ names
      · rw [if_pos hname] at h
        cases h
      · rw [if_neg hname] at h
        obtain ⟨source, hsource, h⟩ := Outcome.bind_eq_ok_iff.1 h
        obtain ⟨others, hothers, h⟩ := Outcome.bind_eq_ok_iff.1 h
        obtain rfl := Except.ok.inj h
        exact List.forall_mem_cons.2 ⟨isBoundIn_source hsource, ih hothers⟩

/-! ## Calls -/

/-- A query whose aliases are distinct and whose nodes refer to what is bound before them. -/
structure IsScoped (query : Query) : Prop where
  distinct : (query.bindings.map (·.var)).Nodup
  nodes : QueryNode.AreScoped [query.root] query.nodes

theorem bindings_push (query : Query) (node : QueryNode) :
    (query.push node).bindings = query.bindings ++ node.bindings := by
  simp [bindings, push]

theorem IsScoped.push (h : query.IsScoped) {node : QueryNode} (hnode : node.IsScoped query.bindings)
    (hdistinct : (node.bindings.map (·.var)).Nodup)
    (hfresh : ∀ binding ∈ node.bindings, binding.var ∉ query.bindings.map (·.var)) :
    (query.push node).IsScoped := by
  constructor
  · rw [bindings_push, List.map_append, List.nodup_append]
    refine ⟨h.distinct, hdistinct, ?_⟩
    intro var hvar other hother heq
    obtain ⟨binding, hbinding, rfl⟩ := List.mem_map.1 hother
    exact hfresh binding hbinding (heq ▸ hvar)
  · exact QueryNode.areScoped_append.2 ⟨h.nodes, hnode, trivial⟩

theorem IsScoped.pushPlain (h : query.IsScoped) {node : QueryNode}
    (hnode : node.IsScoped query.bindings) (hnone : node.bindings = []) :
    (query.push node).IsScoped :=
  h.push hnode (by simp [hnone]) (by simp [hnone])

theorem notMem_of_checkNewAlias {node var : String} {u : Unit}
    (h : query.checkNewAlias node var = .ok u) : var ∉ query.bindings.map (·.var) := by
  obtain ⟨_, _, h⟩ := Outcome.bind_eq_ok_iff.1 h
  by_cases hbound : (query.binding? var).isSome = true
  · rw [if_pos hbound] at h
    cases h
  · intro hmem
    obtain ⟨binding, hbinding, rfl⟩ := List.mem_map.1 hmem
    exact hbound (List.find?_isSome.2 ⟨binding, hbinding, beq_self_eq_true _⟩)

theorem isScoped_filter (h : query.IsScoped) {condition : Condition}
    (hfilter : query.filter condition = .ok after) : after.IsScoped := by
  obtain ⟨resolved, hresolved, hpush⟩ := Outcome.bind_eq_ok_iff.1 hfilter
  obtain rfl := Except.ok.inj hpush
  exact h.pushPlain (isBoundIn_of_resolves (resolves_condition condition hresolved)) rfl

theorem isScoped_sortBy (h : query.IsScoped) {keys : List SortKey}
    (hsort : query.sortBy keys = .ok after) : after.IsScoped := by
  obtain ⟨resolved, hresolved, hpush⟩ := Outcome.bind_eq_ok_iff.1 hsort
  obtain rfl := Except.ok.inj hpush
  refine h.pushPlain (fun key hkey => ?_) rfl
  exact isBoundIn_of_resolves (resolves_keys hresolved) _ (List.mem_map_of_mem hkey)

theorem isScoped_join (h : query.IsScoped) {var : String} {schema : Schema}
    (hjoin : query.join var schema = .ok after) : after.IsScoped := by
  obtain ⟨_, hvar, hpush⟩ := Outcome.bind_eq_ok_iff.1 hjoin
  obtain rfl := Except.ok.inj hpush
  refine h.push trivial (by simp [QueryNode.bindings]) ?_
  intro binding hbinding
  rw [List.mem_singleton.1 hbinding]
  exact notMem_of_checkNewAlias hvar

theorem isScoped_project (h : query.IsScoped) {projections : List Projection}
    (hproject : query.project projections = .ok after) : after.IsScoped := by
  obtain ⟨resolved, hresolved, hpush⟩ := Outcome.bind_eq_ok_iff.1 hproject
  by_cases hempty : resolved.isEmpty = true
  · rw [if_pos hempty] at hpush
    cases hpush
  · rw [if_neg hempty] at hpush
    obtain rfl := Except.ok.inj hpush
    refine h.pushPlain (fun projection hprojection => ?_) rfl
    obtain ⟨entry, hentry, rfl⟩ := List.mem_map.1 hprojection
    exact isBoundIn_attributes hresolved entry hentry

theorem isScoped_traverse (h : query.IsScoped) {traversal : Traversal}
    (htraverse : query.traverse traversal = .ok after) : after.IsScoped := by
  obtain ⟨hstart, hvertex, hedge, rfl⟩ := traverse_eq_ok_iff.1 htraverse
  obtain ⟨binding, hbinding⟩ := Option.isSome_iff_exists.1 hstart
  obtain ⟨hmem, hvar⟩ := mem_of_binding? hbinding
  refine h.push ⟨binding, hmem, congrArg some hvar.symm⟩ ?_ ?_
  · cases hedge? : traversal.edge? with
    | none => simp [QueryNode.bindings]
    | some edge => simp [QueryNode.bindings, Ne.symm (hedge edge hedge?).2]
  · intro fresh hfresh
    rcases List.mem_cons.1 hfresh with rfl | hfresh
    · exact notMem_of_checkNewAlias hvertex
    · exact notMem_of_checkNewAlias (hedge fresh (Option.mem_toList.1 hfresh)).1

theorem isScoped_apply (h : query.IsScoped) {call : Call} (hcall : call.apply query = .ok after) :
    after.IsScoped := by
  cases call with
  | filter condition => exact isScoped_filter h hcall
  | sortBy keys => exact isScoped_sortBy h hcall
  | limit count =>
      obtain rfl := Except.ok.inj hcall
      exact h.pushPlain trivial rfl
  | slice offset count =>
      obtain rfl := Except.ok.inj hcall
      exact h.pushPlain trivial rfl
  | project projections => exact isScoped_project h hcall
  | traverse traversal => exact isScoped_traverse h hcall
  | join var schema => exact isScoped_join h hcall
  | joinOn var schema condition =>
      obtain ⟨joined, hjoined, hfilter⟩ := Outcome.bind_eq_ok_iff.1 hcall
      exact isScoped_filter (isScoped_join h hjoined) hfilter

theorem isScoped_foldlM (h : query.IsScoped) {calls : List Call}
    (hcalls : calls.foldlM Call.apply query = .ok after) : after.IsScoped := by
  induction calls generalizing query with
  | nil =>
      obtain rfl := Except.ok.inj hcalls
      exact h
  | cons call calls ih =>
      rw [List.foldlM_cons] at hcalls
      obtain ⟨next, hnext, hcalls⟩ := Outcome.bind_eq_ok_iff.1 hcalls
      exact ih (isScoped_apply h hnext) hcalls

/-- The aliases of a query that was built are distinct, and its nodes refer to what is bound
before them. -/
theorem isScoped_build {start : Start} {calls : List Call} (h : build start calls = .ok query) :
    query.IsScoped := by
  obtain ⟨root, hroot, hcalls⟩ := Outcome.bind_eq_ok_iff.1 h
  have hnone := nodes_start hroot
  refine isScoped_foldlM ⟨?_, ?_⟩ hcalls
  · simp [bindings, hnone]
  · rw [hnone]
    trivial

end Query

end DocGraph
