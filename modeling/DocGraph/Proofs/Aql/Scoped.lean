import DocGraph.Proofs.Aql.References
import Mathlib.Data.List.Nodup
/-!
# Compiled queries are well scoped

Whatever variable a text uses was bound by a loop before it, exactly once, and whatever attributes
are read from it are ones that the schema of its alias knows.  The compiler keeps the variable that
fields without alias belong to in step with the query.
-/

namespace DocGraph

namespace Query

/-! ## The current alias -/

/-- Node by node the compiler reaches the alias that the query is about. -/
theorem foldl_next (query : Query) :
    query.steps.foldl (fun current node => node.next current) query.root.var
      = query.current.var := by
  obtain ⟨root, nodes⟩ := query
  change nodes.foldl (fun current node => node.next current) root.var
    = ((nodes.reverse.findSome? QueryNode.current?).getD root).var
  induction nodes using List.reverseRecOn with
  | nil => rfl
  | append_singleton nodes node ih =>
      rw [List.foldl_append, ih, List.reverse_append]
      cases hcurrent : node.current? with
      | none => simp [QueryNode.next, hcurrent]
      | some binding => simp [QueryNode.next, hcurrent]

theorem bindings_eq_steps (query : Query) :
    query.bindings = query.steps.flatMap QueryNode.bindings := rfl

end Query

namespace Aql

/-! ## What is bound -/

/-- A variable that is bound, with a path of attributes that its schema knows. -/
def Access.IsBoundIn (scope : List Binding) (r : Access) : Prop :=
  ∃ binding ∈ scope, binding.var = r.base ∧
    (r.path ≠ [] → ∃ type?, binding.schema.resolvePath r.path = .ok type?)

variable {scope : List Binding} {current : String}

theorem isBoundIn_access {field : FieldRef} (h : field.IsBoundIn scope) :
    (access current field).IsBoundIn scope := by
  obtain ⟨binding, hbinding, hvar, hpath⟩ := h
  exact ⟨binding, hbinding, by simp [access, hvar], fun _ => hpath⟩

theorem isBoundIn_variable {binding : Binding} (h : binding ∈ scope) :
    (⟨binding.var, []⟩ : Access).IsBoundIn scope :=
  ⟨binding, h, rfl, fun hpath => absurd rfl hpath⟩

theorem isBoundIn_reference {source : ProjectionSource} (h : source.IsBoundIn scope) :
    (compileSource current source).reference.IsBoundIn scope := by
  cases source with
  | field field => exact isBoundIn_access h
  | var name =>
      obtain ⟨binding, hbinding, rfl⟩ := h
      exact isBoundIn_variable hbinding

theorem isBoundIn_accessesOf {node : QueryNode} (h : node.IsScoped scope) :
    ∀ r ∈ accessesOf current node, r.IsBoundIn scope := by
  intro r hr
  cases node with
  | filter condition =>
      obtain ⟨field, hfield, rfl⟩ := List.mem_map.1 hr
      exact isBoundIn_access (h field hfield)
  | sort keys =>
      obtain ⟨key, hkey, rfl⟩ := List.mem_map.1 hr
      exact isBoundIn_access (h key hkey)
  | limit offset count => cases hr
  | project attributes row =>
      obtain ⟨projection, hprojection, rfl⟩ := List.mem_map.1 hr
      exact isBoundIn_reference (h projection hprojection)
  | traverse traversal =>
      obtain ⟨binding, hbinding, hstart⟩ := h
      rw [List.mem_singleton.1 hr, hstart]
      exact isBoundIn_variable hbinding
  | join binding => cases hr

theorem Access.IsBoundIn.mono {larger : List Binding} {r : Access} (h : r.IsBoundIn scope)
    (hsubset : scope ⊆ larger) : r.IsBoundIn larger := by
  obtain ⟨binding, hbinding, hrest⟩ := h
  exact ⟨binding, hsubset hbinding, hrest⟩

theorem Access.IsBoundIn.base_mem {r : Access} (h : r.IsBoundIn scope) :
    r.base ∈ scope.map (·.var) := by
  obtain ⟨binding, hbinding, hvar, _⟩ := h
  exact List.mem_map.2 ⟨binding, hbinding, hvar⟩

/-! ## Clauses in their order -/

/-- Each clause uses variables that are known or bound by a clause before it. -/
def AreScoped (bindings : List Binding) : List String → List (List Lexeme) → Prop
  | _, [] => True
  | known, clause :: rest =>
    (∀ r ∈ usedIn clause, r.base ∈ known ∧ r.IsBoundIn bindings) ∧
      AreScoped bindings (known ++ boundIn clause) rest

theorem AreScoped.of_append {bindings : List Binding} {known : List String}
    {before rest : List (List Lexeme)} {clause : List Lexeme}
    (h : AreScoped bindings known (before ++ clause :: rest)) :
    ∀ r ∈ usedIn clause, r.base ∈ known ++ before.flatMap boundIn ∧ r.IsBoundIn bindings := by
  induction before generalizing known with
  | nil =>
      rw [List.flatMap_nil, List.append_nil]
      exact h.1
  | cons first before ih =>
      rw [List.flatMap_cons, ← List.append_assoc]
      exact ih h.2

variable {nodes : List QueryNode} {bound after : Bound} {program : Program}

theorem clauses_cons (statement : Statement) (program : Program) :
    Program.clauses { program with statements := statement :: program.statements }
      = statement.lexemes :: program.clauses := rfl

/-- The loops of a program bind what its nodes bind, in their order. -/
theorem NodesRun.boundIn (hrun : NodesRun current nodes bound program after) :
    program.clauses.flatMap boundIn = (nodes.flatMap QueryNode.bindings).map (·.var) := by
  induction hrun with
  | document current bound => exact (List.append_nil _).trans (reads_result _).1
  | row current attributes row bound => exact (List.append_nil _).trans (reads_result _).1
  | node hnode hrest ih =>
      rw [clauses_cons, List.flatMap_cons, List.flatMap_cons, List.map_append, ih, hnode.reads.1]

theorem NodesRun.areScoped (hrun : NodesRun current nodes bound program after)
    (hscoped : QueryNode.AreScoped scope nodes)
    (hlast : nodes.foldl (fun current node => node.next current) current
      ∈ (scope ++ nodes.flatMap QueryNode.bindings).map (·.var)) :
    AreScoped (scope ++ nodes.flatMap QueryNode.bindings) (scope.map (·.var)) program.clauses := by
  induction hrun generalizing scope with
  | document current bound =>
      rw [List.flatMap_nil, List.append_nil] at hlast ⊢
      obtain ⟨binding, hbinding, hvar⟩ := List.mem_map.1 hlast
      refine ⟨fun r hr => ?_, trivial⟩
      have hr' : r ∈ [(⟨current, []⟩ : Access)] := ((reads_result _).2 r).1 hr
      rw [List.mem_singleton.1 hr', ← show binding.var = current from hvar]
      exact ⟨List.mem_map_of_mem hbinding, isBoundIn_variable hbinding⟩
  | row current attributes row bound =>
      have hnone :
          scope ++ [QueryNode.project attributes row].flatMap QueryNode.bindings = scope := by
        simp [QueryNode.bindings]
      rw [hnone]
      refine ⟨fun r hr => ?_, trivial⟩
      have hr' := ((reads_result _).2 r).1 hr
      rw [compileRow_eq, Result.accesses, List.map_map] at hr'
      have hbound := isBoundIn_accessesOf hscoped.1 r hr'
      exact ⟨hbound.base_mem, hbound⟩
  | @node current node rest statement program bound middle after hnode hrest ih =>
      obtain ⟨hfirst, hothers⟩ := hscoped
      have htotal : scope ++ (node :: rest).flatMap QueryNode.bindings
          = (scope ++ node.bindings) ++ rest.flatMap QueryNode.bindings := by
        simp
      rw [htotal] at hlast ⊢
      obtain ⟨hbound, hused⟩ := hnode.reads
      refine ⟨fun r hr => ?_, ?_⟩
      · have hr' := isBoundIn_accessesOf hfirst r ((hused r).1 hr)
        exact ⟨hr'.base_mem, hr'.mono (by simp [List.append_assoc])⟩
      · rw [hbound, ← List.map_append]
        exact ih hothers hlast

/-- Without a projection a program returns the variable that its nodes reach. -/
theorem NodesRun.result (hrun : NodesRun current nodes bound program after)
    (hplain : ∀ attributes row, .project attributes row ∉ nodes) :
    program.result = .document (nodes.foldl (fun current node => node.next current) current) := by
  induction hrun with
  | document current bound => rfl
  | row current attributes row bound => exact absurd List.mem_cons_self (hplain attributes row)
  | node hnode hrest ih =>
      exact ih fun attributes row hmem => hplain attributes row (List.mem_cons_of_mem _ hmem)

end Aql

namespace Query

/-- Aliases are distinct variables.  Every variable that the text of a query uses is bound by one
loop, which stands before it, the attributes that are read from it are known to the schema of the
alias, and without a projection the current alias is returned. -/
theorem scoped_text {start : Start} {calls : List Call} {query : Query}
    (hquery : build start calls = .ok query) :
    (query.bindings.map (·.var)).Nodup ∧
    (∀ binding ∈ query.bindings, Aql.isVariable binding.var = true) ∧
    ∀ compiled, query.compile = .ok compiled →
      ∃ lexemes, Aql.lexemes? compiled.text = some lexemes ∧
        (Aql.clauses lexemes).flatMap Aql.boundIn = query.bindings.map (·.var) ∧
        (∀ before clause after, Aql.clauses lexemes = before ++ clause :: after →
          ∀ r ∈ Aql.usedIn clause,
            (before.flatMap Aql.boundIn).count r.base = 1 ∧
            r.base ∉ (clause :: after).flatMap Aql.boundIn ∧
            (r.path ≠ [] → ∃ binding ∈ query.bindings, binding.var = r.base ∧
              ∃ type?, binding.schema.resolvePath r.path = .ok type?)) ∧
        ((∀ attributes row, .project attributes row ∉ query.nodes) →
          (Aql.clauses lexemes).getLast?
            = some [Aql.keyword "RETURN", Aql.variableNamed query.current.var]) := by
  have hresolved := (isResolved_build hquery).1
  have hscoped := isScoped_build hquery
  refine ⟨hscoped.distinct, hresolved.named, fun compiled hcompiled => ?_⟩
  obtain ⟨program, bound, hrun, htext, _⟩ := compile_eq_ok_iff_run.1 hcompiled
  have hbound := hrun.boundIn
  have hclauses : Aql.AreScoped query.bindings [] program.clauses := by
    have hsteps : QueryNode.AreScoped [] query.steps := ⟨trivial, hscoped.nodes⟩
    refine hrun.areScoped hsteps ?_
    rw [foldl_next]
    exact List.mem_map_of_mem query.current_mem_bindings
  refine ⟨program.lexemes, htext ▸ hresolved.lexemes?_text hrun, ?_⟩
  rw [Aql.clauses_lexemes]
  refine ⟨hbound, ?_, ?_⟩
  · intro before clause after hsplit r hr
    have hdistinct := hscoped.distinct
    rw [bindings_eq_steps, ← hbound, hsplit, List.flatMap_append] at hdistinct
    rw [hsplit] at hclauses
    obtain ⟨hbefore, binding, hbinding, hvar, hpath⟩ := hclauses.of_append r hr
    rw [List.nil_append] at hbefore
    obtain ⟨hnodup, _, hdisjoint⟩ := List.nodup_append.1 hdistinct
    refine ⟨List.count_eq_one_of_mem hnodup hbefore, ?_,
      fun h => ⟨binding, hbinding, hvar, hpath h⟩⟩
    exact fun hmem => hdisjoint _ hbefore _ hmem rfl
  · intro hplain
    have hresult := hrun.result fun attributes row hmem =>
      (List.mem_cons.1 hmem).elim (by simp) (hplain attributes row)
    rw [Aql.Program.clauses, hresult, foldl_next, List.getLast?_concat]
    rfl

def crewCalls : List Call :=
  let people : Schema :=
    ⟨"people", .document, [⟨"name", .primitive .string, true, none, false, none⟩], false, []⟩
  [.filter (.presence (.ofDotted "flag.colour") true),
    .traverse ⟨.inbound, 1, 2, .edgeCollections ["serves"], ⟨"sailor", people⟩,
      some ⟨"service", ⟨"serves", .edge, [], true, []⟩⟩, none⟩,
    .joinOn "owner" people
      (.compare (.ofDotted "name") .ne (.field (.ofAlias "sailor" "name"))),
    .sortBy [⟨.ofDotted "name", .asc⟩, ⟨.ofAlias "service" "since", .desc⟩],
    .traverse ⟨.any, 0, 1, .graph "family", ⟨"relative", people⟩, none, some "sailor"⟩]

theorem scoped_text_crew :
    ∃ query compiled, build (.aliased ⟨"ships", .document, [], true, []⟩ "ship") crewCalls
        = .ok query ∧ query.compile = .ok compiled ∧
      ∃ lexemes, Aql.lexemes? compiled.text = some lexemes ∧
        (Aql.clauses lexemes).flatMap Aql.boundIn
          = ["ship", "sailor", "service", "owner", "relative"] ∧
        (Aql.clauses lexemes).getLast?
          = some [Aql.keyword "RETURN", Aql.variableNamed "relative"] := by
  have hcompiles : ((build (.aliased ⟨"ships", .document, [], true, []⟩ "ship") crewCalls).bind
      compile).isOk = true := by
    decide +kernel
  have hfacts : (build (.aliased ⟨"ships", .document, [], true, []⟩ "ship") crewCalls).toOption.map
      (fun query => (query.bindings.map (·.var), query.current.var, query.nodes.map QueryNode.kind))
        = some (["ship", "sailor", "service", "owner", "relative"], "relative",
          ["Filter", "Traverse", "Join", "Filter", "Sort", "Traverse"]) := by
    decide +kernel
  obtain ⟨compiled, hcompiles⟩ := Outcome.exists_of_isOk hcompiles
  obtain ⟨query, hquery, hcompiled⟩ := Outcome.bind_eq_ok_iff.1 hcompiles
  obtain ⟨_, _, htext⟩ := scoped_text hquery
  obtain ⟨lexemes, hlexemes, hbound, _, hreturned⟩ := htext compiled hcompiled
  rw [hquery] at hfacts
  simp only [Except.toOption, Option.map_some, Option.some.injEq, Prod.mk.injEq] at hfacts
  obtain ⟨haliases, hcurrent, hkinds⟩ := hfacts
  refine ⟨query, compiled, hquery, hcompiled, lexemes, hlexemes, hbound.trans haliases, ?_⟩
  rw [← hcurrent]
  refine hreturned fun attributes row hmem => ?_
  have hkind := List.mem_map_of_mem (f := QueryNode.kind) hmem
  rw [hkinds] at hkind
  simp [QueryNode.kind] at hkind

end Query

end DocGraph
