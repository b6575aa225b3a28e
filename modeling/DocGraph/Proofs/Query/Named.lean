import DocGraph.Proofs.Query.Calls
/-!
# Aliases are variables

Calls append nodes and leave the nodes before them alone, and every alias that they bind is a
variable; so no alias of a query that was built by calls can be mistaken for anything else.
-/

namespace DocGraph

def QueryNode.IsNamed (node : QueryNode) : Prop :=
  ∀ binding ∈ node.bindings, Aql.isVariable binding.var = true

namespace Query

def IsNamed (query : Query) : Prop :=
  ∀ binding ∈ query.bindings, Aql.isVariable binding.var = true

def appendNodes (query : Query) (nodes : List QueryNode) : Query :=
  { query with nodes := query.nodes ++ nodes }

variable {query after : Query}

theorem IsNamed.appendNodes (h : query.IsNamed) {nodes : List QueryNode}
    (hnodes : ∀ node ∈ nodes, node.IsNamed) : (query.appendNodes nodes).IsNamed := by
  intro binding hbinding
  unfold bindings Query.appendNodes at hbinding
  rw [List.flatMap_append] at hbinding
  rcases List.mem_cons.1 hbinding with rfl | hbinding
  · exact h _ List.mem_cons_self
  · rcases List.mem_append.1 hbinding with hbinding | hbinding
    · exact h _ (List.mem_cons_of_mem _ hbinding)
    · obtain ⟨node, hnode, hbinding⟩ := List.mem_flatMap.1 hbinding
      exact hnodes node hnode binding hbinding

theorem binding?_isVariable (hnamed : query.IsNamed) {var : String}
    (h : (query.binding? var).isSome) : Aql.isVariable var = true := by
  obtain ⟨binding, hbinding⟩ := Option.isSome_iff_exists.1 h
  have hmem := List.mem_of_find?_eq_some hbinding
  have hvar := List.find?_some hbinding
  rw [← eq_of_beq hvar]
  exact hnamed binding hmem

theorem checkAlias_eq_ok {node var : String} {u : Unit} (h : checkAlias node var = .ok u) :
    Aql.isVariable var = true := by
  unfold checkAlias at h
  by_cases hvar : Aql.isVariable var = true
  · exact hvar
  · rw [if_neg hvar] at h
    cases h

theorem checkNewAlias_eq_ok {node var : String} {u : Unit}
    (h : query.checkNewAlias node var = .ok u) : Aql.isVariable var = true := by
  obtain ⟨_, hvar, _⟩ := Outcome.bind_eq_ok_iff.1 h
  exact checkAlias_eq_ok hvar

theorem isNamed_traverse {traversal : Traversal}
    (h : query.traverse traversal = .ok after) : (QueryNode.traverse traversal).IsNamed := by
  obtain ⟨_, hvertex, hedge, _⟩ := traverse_eq_ok_iff.1 h
  intro binding hbinding
  rcases List.mem_cons.1 hbinding with rfl | hbinding
  · exact checkNewAlias_eq_ok hvertex
  · exact checkNewAlias_eq_ok (hedge binding (Option.mem_toList.1 hbinding)).1

/-- What a call makes of a query: it appends nodes whose aliases are variables. -/
def Appends (query after : Query) : Prop :=
  ∃ nodes, after = query.appendNodes nodes ∧ ∀ node ∈ nodes, node.IsNamed

theorem Appends.refl (query : Query) : query.Appends query :=
  ⟨[], by simp [Query.appendNodes], by simp⟩

theorem Appends.trans {middle : Query} (h : query.Appends middle) (h' : middle.Appends after) :
    query.Appends after := by
  obtain ⟨nodes, rfl, hnodes⟩ := h
  obtain ⟨nodes', rfl, hnodes'⟩ := h'
  refine ⟨nodes ++ nodes', by simp [Query.appendNodes], ?_⟩
  intro node hnode
  rcases List.mem_append.1 hnode with hnode | hnode
  · exact hnodes node hnode
  · exact hnodes' node hnode

theorem appends_push {node : QueryNode} (h : node.IsNamed) : query.Appends (query.push node) := by
  refine ⟨[node], rfl, ?_⟩
  intro other hother
  rw [List.mem_singleton.1 hother]
  exact h

theorem appends_filter {condition : Condition} (h : query.filter condition = .ok after) :
    query.Appends after := by
  obtain ⟨resolved, _, h⟩ := Outcome.bind_eq_ok_iff.1 h
  obtain rfl := Except.ok.inj h
  exact appends_push (by simp [QueryNode.IsNamed, QueryNode.bindings])

theorem appends_join {var : String} {schema : Schema} (h : query.join var schema = .ok after) :
    query.Appends after := by
  obtain ⟨_, hvar, h⟩ := Outcome.bind_eq_ok_iff.1 h
  obtain rfl := Except.ok.inj h
  apply appends_push
  intro binding hbinding
  rw [List.mem_singleton.1 hbinding]
  exact checkNewAlias_eq_ok hvar

theorem appends_apply {call : Call} (h : call.apply query = .ok after) : query.Appends after := by
  have hplain : ∀ node : QueryNode, node.bindings = [] → query.Appends (query.push node) := by
    intro node hnone
    apply appends_push
    simp [QueryNode.IsNamed, hnone]
  cases call with
  | filter condition => exact appends_filter h
  | sortBy keys =>
      obtain ⟨resolved, _, h⟩ := Outcome.bind_eq_ok_iff.1 h
      obtain rfl := Except.ok.inj h
      exact hplain (.sort resolved) rfl
  | limit count =>
      obtain rfl := Except.ok.inj h
      exact hplain (.limit none count) rfl
  | slice offset count =>
      obtain rfl := Except.ok.inj h
      exact hplain (.limit (some offset) count) rfl
  | project projections =>
      obtain ⟨attributes, _, h⟩ := Outcome.bind_eq_ok_iff.1 h
      by_cases hempty : attributes.isEmpty = true
      · rw [if_pos hempty] at h
        cases h
      · rw [if_neg hempty] at h
        obtain rfl := Except.ok.inj h
        exact hplain (.project _ _) rfl
  | traverse traversal =>
      have hnamed := isNamed_traverse h
      obtain ⟨_, _, _, rfl⟩ := traverse_eq_ok_iff.1 h
      exact appends_push hnamed
  | join var schema => exact appends_join h
  | joinOn var schema condition =>
      obtain ⟨joined, hjoined, h⟩ := Outcome.bind_eq_ok_iff.1 h
      exact (appends_join hjoined).trans (appends_filter h)

theorem appends_foldlM {calls : List Call} (h : calls.foldlM Call.apply query = .ok after) :
    query.Appends after := by
  induction calls generalizing query with
  | nil =>
      obtain rfl := Except.ok.inj h
      exact Appends.refl query
  | cons call calls ih =>
      rw [List.foldlM_cons] at h
      obtain ⟨next, hnext, h⟩ := Outcome.bind_eq_ok_iff.1 h
      exact (appends_apply hnext).trans (ih h)

theorem isNamed_start {start : Start} (h : start.query = .ok query) : query.IsNamed := by
  cases start with
  | documents schema =>
      obtain rfl := Except.ok.inj h
      intro binding hbinding
      rw [List.mem_singleton.1 hbinding]
      exact (by decide : Aql.isVariable rootAlias = true)
  | aliased schema var =>
      obtain ⟨_, hvar, h⟩ := Outcome.bind_eq_ok_iff.1 h
      obtain rfl := Except.ok.inj h
      intro binding hbinding
      rw [List.mem_singleton.1 hbinding]
      exact checkAlias_eq_ok hvar

theorem isNamed_build {start : Start} {calls : List Call} (h : build start calls = .ok query) :
    query.IsNamed := by
  obtain ⟨root, hroot, h⟩ := Outcome.bind_eq_ok_iff.1 h
  obtain ⟨nodes, rfl, hnodes⟩ := appends_foldlM h
  exact (isNamed_start hroot).appendNodes hnodes

end Query

end DocGraph
