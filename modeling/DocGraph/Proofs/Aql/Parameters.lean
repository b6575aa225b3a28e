import DocGraph.Proofs.Aql.Bound
import DocGraph.Proofs.Aql.Run
/-!
# Parameters stand for the data of a query

Whatever a caller supplies as data is bound on the way, node by node and from left to right.  What
is sent along has exactly the names that the text mentions, and under the number `k` of a kind
stands the datum of that kind that comes behind `k` others.
-/

namespace DocGraph

/-! ## The data of a query -/

def Operand.literals : Operand → List Json
  | .literal value => [value]
  | .field _ => []

mutual
/-- The literals of a condition from left to right; a group without parts is a truth value. -/
def Condition.literals : Condition → List Json
  | .all parts => if parts.isEmpty then [.bool true] else Condition.literalsOf parts
  | .any parts => if parts.isEmpty then [.bool false] else Condition.literalsOf parts
  | .negation part => part.literals
  | .presence _ _ => []
  | .compare _ _ operand => operand.literals
termination_by structural condition => condition

def Condition.literalsOf : List Condition → List Json
  | [] => []
  | part :: parts => part.literals ++ Condition.literalsOf parts
termination_by structural parts => parts
end

def TraversalTarget.data : Aql.ParameterKind → TraversalTarget → List Json
  | .graph, .graph name => [.string name]
  | .edges, .edgeCollections names => names.map .string
  | _, _ => []

def QueryNode.data : Aql.ParameterKind → QueryNode → List Json
  | .value, .filter condition => condition.literals
  | .collection, .join binding => [.string binding.schema.name]
  | .offset, .limit (some offset) _ => [.ofUInt64 offset]
  | .count, .limit _ count => [.ofUInt64 count]
  | kind, .traverse traversal => TraversalTarget.data kind traversal.target
  | _, _ => []

/-- The data of a query that parameters of a kind stand for: what its nodes hold, in their order,
and before it the collection of the root. -/
def Query.data (query : Query) (kind : Aql.ParameterKind) : List Json :=
  query.steps.flatMap (QueryNode.data kind)

namespace Aql

/-! ## What is mentioned -/

abbrev Mentions (words : List Lexeme) (key : String) : Prop := .token (.parameter key) ∈ words

theorem parameter_mem_compareTokens {isList : Bool} {operator : Operator}
    {left right : List Token} {key : String} :
    .parameter key ∈ compareTokens isList operator left right ↔
      .parameter key ∈ left ∨ .parameter key ∈ right := by
  cases operator <;> cases isList <;> simp [compareTokens, or_comm]

theorem parameter_notMem_access (access : Access) (key : String) :
    .parameter key ∉ access.tokens := by
  simp [Access.tokens]

theorem parameter_mem_group {connective : Connective} {parts : List Formula} {key : String} :
    .parameter key ∈ (Formula.group connective parts).tokens ↔
      ∃ tokens ∈ formulaTokens parts, .parameter key ∈ tokens := by
  have hconnective : Token.parameter key ∉ [connective.token] := by
    cases connective <;> simp [Connective.token]
  simp [Formula.tokens, mem_intercalate_iff hconnective]

/-! ## What is bound -/

def valuesOf (kind : ParameterKind) (bound : Bound) : List Json :=
  (bound.filter fun entry => entry.1.kind == kind).map Prod.snd

/-- A step binds some data, and what it gives mentions exactly the names that it bound. -/
def Binds (bound after : Bound) (mentions : String → Prop)
    (data : ParameterKind → List Json) : Prop :=
  ∃ entries : Bound, after = bound ++ entries ∧
    (∀ key, mentions key ↔ ∃ entry ∈ entries, entry.1.key = key) ∧
    ∀ kind, valuesOf kind entries = data kind

def only (kind : ParameterKind) (values : List Json) (other : ParameterKind) : List Json :=
  if other = kind then values else []

variable {bound middle after : Bound} {mentions mentions' : String → Prop}
  {data data' : ParameterKind → List Json}

theorem binds_nothing (bound : Bound) : Binds bound bound (fun _ => False) fun _ => [] :=
  ⟨[], by simp, by simp, fun _ => rfl⟩

theorem Binds.append (h : Binds bound middle mentions data)
    (h' : Binds middle after mentions' data') :
    Binds bound after (fun key => mentions key ∨ mentions' key)
      fun kind => data kind ++ data' kind := by
  obtain ⟨entries, rfl, hkeys, hvalues⟩ := h
  obtain ⟨entries', rfl, hkeys', hvalues'⟩ := h'
  refine ⟨entries ++ entries', List.append_assoc _ _ _, fun key => ?_, fun kind => ?_⟩
  · simp [hkeys, hkeys', or_and_right, exists_or]
  · dsimp only
    rw [← hvalues, ← hvalues', valuesOf, List.filter_append, List.map_append]
    rfl

theorem Binds.congr (h : Binds bound after mentions data)
    (hmentions : ∀ key, mentions' key ↔ mentions key) (hdata : ∀ kind, data' kind = data kind) :
    Binds bound after mentions' data' := by
  obtain ⟨entries, rfl, hkeys, hvalues⟩ := h
  exact ⟨entries, rfl, fun key => (hmentions key).trans (hkeys key),
    fun kind => (hvalues kind).trans (hdata kind).symm⟩

theorem binds_bind {kind : ParameterKind} {value : Json} {p : Parameter}
    (hrun : (bind kind value).run bound = .ok (p, after)) :
    Binds bound after (p.key = ·) (only kind [value]) := by
  obtain ⟨rfl, rfl⟩ := Prod.mk.inj (Except.ok.inj hrun)
  refine ⟨_, rfl, by simp, fun other => ?_⟩
  by_cases hkind : other = kind
  · simp [valuesOf, only, hkind]
  · simp [valuesOf, only, hkind, Ne.symm hkind]

theorem only_append (kind : ParameterKind) (values values' : List Json) (other : ParameterKind) :
    only kind (values ++ values') other = only kind values other ++ only kind values' other := by
  unfold only
  by_cases hkind : other = kind
  · simp [hkind]
  · simp [hkind]

theorem only_nil (kind other : ParameterKind) : only kind [] other = [] := ite_self []

/-! ## Conditions -/

variable {current : String}

theorem binds_operand {operand : Operand} {term : Term}
    (hrun : (compileOperand current operand).run bound = .ok (term, after)) :
    Binds bound after (.parameter · ∈ term.tokens) (only .value operand.literals) := by
  cases operand with
  | literal value =>
      obtain ⟨p, middle, hbind, hpure⟩ := run_bind_eq_ok_iff.1 hrun
      obtain ⟨rfl, rfl⟩ := run_pure_eq_ok_iff.1 hpure
      refine (binds_bind hbind).congr (fun key => ?_) fun _ => rfl
      simp [Term.tokens, eq_comm]
  | field field =>
      obtain ⟨rfl, rfl⟩ := run_pure_eq_ok_iff.1 hrun
      refine (binds_nothing bound).congr (fun key => ?_) (only_nil .value)
      simp [Term.tokens, parameter_notMem_access]

theorem binds_group {connective : Connective} {parts : List Formula} {formula : Formula}
    {values : List Json}
    (hparts : Binds bound middle (fun key => ∃ tokens ∈ formulaTokens parts,
      .parameter key ∈ tokens) (only .value values))
    (hrun : (group connective parts).run middle = .ok (formula, after)) :
    Binds bound after (.parameter · ∈ formula.tokens)
      (only .value (if parts.isEmpty then values ++ [.bool (connective == .and)] else values)) := by
  match parts with
  | [] =>
      obtain ⟨p, last, hbind, hpure⟩ := run_bind_eq_ok_iff.1 hrun
      obtain ⟨rfl, rfl⟩ := run_pure_eq_ok_iff.1 hpure
      refine (hparts.append (binds_bind hbind)).congr (fun key => ?_) (only_append .value _ _)
      simp [formulaTokens, Formula.tokens, eq_comm]
  | [part] =>
      obtain ⟨rfl, rfl⟩ := run_pure_eq_ok_iff.1 hrun
      refine hparts.congr (fun key => ?_) fun _ => rfl
      simp [formulaTokens]
  | first :: second :: rest =>
      obtain ⟨rfl, rfl⟩ := run_pure_eq_ok_iff.1 hrun
      exact hparts.congr (fun key => parameter_mem_group) fun _ => rfl

mutual
/-- A condition mentions the literals that it binds, from left to right. -/
theorem binds_condition (current : String) : (condition : Condition) →
    ∀ {formula : Formula} {bound after : Bound},
      (compileCondition current condition).run bound = .ok (formula, after) →
      Binds bound after (.parameter · ∈ formula.tokens) (only .value condition.literals)
  | .all parts, _, _, _, hrun => by
      obtain ⟨formulas, middle, hparts, hgroup⟩ := run_bind_eq_ok_iff.1 hrun
      obtain ⟨hempty, hbinds⟩ := binds_parts current parts hparts
      refine (binds_group hbinds hgroup).congr (fun _ => Iff.rfl) fun kind => ?_
      cases parts with
      | nil => rw [hempty]; rfl
      | cons part parts => rw [hempty]; rfl
  | .any parts, _, _, _, hrun => by
      obtain ⟨formulas, middle, hparts, hgroup⟩ := run_bind_eq_ok_iff.1 hrun
      obtain ⟨hempty, hbinds⟩ := binds_parts current parts hparts
      refine (binds_group hbinds hgroup).congr (fun _ => Iff.rfl) fun kind => ?_
      cases parts with
      | nil => rw [hempty]; rfl
      | cons part parts => rw [hempty]; rfl
  | .negation part, _, _, _, hrun => by
      obtain ⟨inner, middle, hpart, hpure⟩ := run_bind_eq_ok_iff.1 hrun
      obtain ⟨rfl, rfl⟩ := run_pure_eq_ok_iff.1 hpure
      refine (binds_condition current part hpart).congr (fun key => ?_) fun _ => rfl
      simp [Formula.tokens]
  | .presence _ isPresent, _, _, _, hrun => by
      obtain ⟨rfl, rfl⟩ := run_pure_eq_ok_iff.1 hrun
      refine (binds_nothing _).congr (fun key => ?_) (only_nil .value)
      simp [Formula.tokens, parameter_notMem_access]
  | .compare _ operator operand, _, _, _, hrun => by
      unfold compileCondition at hrun
      by_cases hlacks : lacksCandidates operator operand = true
      · rw [if_pos hlacks] at hrun
        cases hrun
      · rw [if_neg hlacks] at hrun
        obtain ⟨term, middle, hterm, hpure⟩ := run_bind_eq_ok_iff.1 hrun
        obtain ⟨rfl, rfl⟩ := run_pure_eq_ok_iff.1 hpure
        refine (binds_operand hterm).congr (fun key => ?_) fun _ => rfl
        simp [Formula.tokens, parameter_mem_compareTokens, parameter_notMem_access]
termination_by structural condition => condition

theorem binds_parts (current : String) : (parts : List Condition) →
    ∀ {formulas : List Formula} {bound after : Bound},
      (compileConditions current parts).run bound = .ok (formulas, after) →
      formulas.isEmpty = parts.isEmpty ∧
      Binds bound after (fun key => ∃ tokens ∈ formulaTokens formulas, .parameter key ∈ tokens)
        (only .value (Condition.literalsOf parts))
  | [], _, _, _, hrun => by
      obtain ⟨rfl, rfl⟩ := run_pure_eq_ok_iff.1 hrun
      refine ⟨rfl, (binds_nothing _).congr (fun key => ?_) (only_nil .value)⟩
      simp [formulaTokens]
  | part :: parts, _, _, _, hrun => by
      obtain ⟨formula, middle, hformula, hrun⟩ := run_bind_eq_ok_iff.1 hrun
      obtain ⟨formulas, last, hformulas, hpure⟩ := run_bind_eq_ok_iff.1 hrun
      obtain ⟨rfl, rfl⟩ := run_pure_eq_ok_iff.1 hpure
      have hboth := (binds_condition current part hformula).append
        (binds_parts current parts hformulas).2
      refine ⟨rfl, hboth.congr (fun key => ?_) (only_append .value _ _)⟩
      simp [formulaTokens]
termination_by structural parts => parts
end

/-! ## Nodes -/

theorem parameter_mem_list {β : Type} {words : β → List Lexeme} {items : List β} {key : String} :
    .token (.parameter key) ∈ comma.intercalate (items.map words) ↔
      ∃ item ∈ items, .token (.parameter key) ∈ words item := by
  rw [mem_intercalate_iff (by simp)]
  simp

theorem binds_names {names : List String} {ps : List Parameter}
    (hrun : (names.mapM fun name => bind .edges (.string name)).run bound = .ok (ps, after)) :
    Binds bound after (fun key => ∃ p ∈ ps, p.key = key) (only .edges (names.map .string)) := by
  induction names generalizing bound ps with
  | nil =>
      obtain ⟨rfl, rfl⟩ := run_pure_eq_ok_iff.1 hrun
      exact (binds_nothing bound).congr (by simp) (only_nil .edges)
  | cons name names ih =>
      rw [List.mapM_cons] at hrun
      obtain ⟨p, middle, hbind, hrun⟩ := run_bind_eq_ok_iff.1 hrun
      obtain ⟨rest, last, hrest, hpure⟩ := run_bind_eq_ok_iff.1 hrun
      obtain ⟨rfl, rfl⟩ := run_pure_eq_ok_iff.1 hpure
      exact ((binds_bind hbind).append (ih hrest)).congr (by simp)
        (only_append .edges [.string name] (names.map .string))

theorem binds_edges {target : TraversalTarget} {edges : TraversalEdges}
    (hrun : (compileEdges target).run bound = .ok (edges, after)) :
    Binds bound after (Mentions edges.lexemes) (fun kind => TraversalTarget.data kind target) := by
  cases target with
  | graph name =>
      obtain ⟨p, middle, hbind, hpure⟩ := run_bind_eq_ok_iff.1 hrun
      obtain ⟨rfl, rfl⟩ := run_pure_eq_ok_iff.1 hpure
      refine (binds_bind hbind).congr (fun key => ?_) fun kind => ?_
      · simp [TraversalEdges.lexemes, Parameter.lexeme, keyword, eq_comm]
      · cases kind <;> rfl
  | edgeCollections names =>
      simp only [compileEdges] at hrun
      by_cases hempty : names.isEmpty = true
      · rw [if_pos hempty] at hrun
        cases hrun
      · rw [if_neg hempty] at hrun
        obtain ⟨ps, middle, hps, hpure⟩ := run_bind_eq_ok_iff.1 hrun
        obtain ⟨rfl, rfl⟩ := run_pure_eq_ok_iff.1 hpure
        refine (binds_names hps).congr (fun key => ?_) fun kind => ?_
        · simp [TraversalEdges.lexemes, parameter_mem_list, Parameter.lexeme, eq_comm]
        · cases kind <;> rfl

theorem parameter_notMem_step (vertex : String) (edge? : Option String) (key : String) :
    .token (.parameter key) ∉ stepLexemes vertex edge? := by
  cases edge? <;> simp [stepLexemes, variableNamed]

theorem parameter_notMem_key (sorted : Access × SortDirection) (key : String) :
    .token (.parameter key) ∉ keyLexemes sorted := by
  simp [keyLexemes, Access.lexemes, parameter_notMem_access, keyword]

theorem binds_nodeRun {node : QueryNode} {statement : Statement}
    (hrun : NodeRun current node bound statement after) :
    Binds bound after (Mentions statement.lexemes) (fun kind => QueryNode.data kind node) := by
  cases hrun with
  | filter hcondition =>
      refine (binds_condition current _ hcondition).congr (fun key => ?_) fun kind => ?_
      · simp [Statement.lexemes, Formula.lexemes, keyword]
      · cases kind <;> rfl
  | sort keys =>
      refine (binds_nothing bound).congr (fun key => ?_) fun kind => ?_
      · simp [Statement.lexemes, keyword, parameter_mem_list, parameter_notMem_key]
      · cases kind <;> rfl
  | limit hcount =>
      refine (binds_bind hcount).congr (fun key => ?_) fun kind => ?_
      · simp [Statement.lexemes, Parameter.lexeme, keyword, eq_comm]
      · cases kind <;> rfl
  | slice hoffset hcount =>
      refine ((binds_bind hoffset).append (binds_bind hcount)).congr (fun key => ?_) fun kind => ?_
      · simp [Statement.lexemes, Parameter.lexeme, keyword, eq_comm]
      · cases kind <;> rfl
  | traverse hdepth hedges =>
      refine (binds_edges hedges).congr (fun key => ?_) fun kind => ?_
      · simp [Statement.lexemes, parameter_notMem_step, keyword, variableNamed]
      · cases kind <;> rfl
  | join hcollection =>
      refine (binds_bind hcollection).congr (fun key => ?_) fun kind => ?_
      · simp [Statement.lexemes, Parameter.lexeme, keyword, variableNamed, eq_comm]
      · cases kind <;> rfl

theorem parameter_notMem_source (source : RowSource) (key : String) :
    .token (.parameter key) ∉ source.lexemes := by
  cases source <;> simp [RowSource.lexemes, Access.lexemes, parameter_notMem_access, variableNamed]

theorem parameter_notMem_result (result : Result) (key : String) :
    .token (.parameter key) ∉ result.lexemes := by
  cases result with
  | document name => simp [Result.lexemes, variableNamed]
  | row attributes =>
      simp [Result.lexemes, parameter_mem_list, attributeLexemes, parameter_notMem_source]

theorem data_project (kind : ParameterKind) (attributes : List Projection) (row : Schema) :
    QueryNode.data kind (.project attributes row) = [] := by
  cases kind <;> rfl

theorem binds_nodesRun {nodes : List QueryNode} {program : Program}
    (hrun : NodesRun current nodes bound program after) :
    Binds bound after (Mentions program.lexemes)
      fun kind => nodes.flatMap (QueryNode.data kind) := by
  induction hrun with
  | document current bound =>
      refine (binds_nothing bound).congr (fun key => ?_) fun _ => rfl
      simp [Program.lexemes, parameter_notMem_result, keyword]
  | row current attributes row bound =>
      refine (binds_nothing bound).congr (fun key => ?_) fun kind => ?_
      · simp [Program.lexemes, parameter_notMem_result, keyword]
      · simp [data_project]
  | node hnode hrest ih =>
      refine ((binds_nodeRun hnode).append ih).congr (fun key => ?_) fun kind => ?_
      · simp [Program.lexemes]
      · rw [List.flatMap_cons]

/-! ## Numbers -/

/-- What every new entry keeps, a whole compilation keeps. -/
theorem stepwise_keeps (Kept : Bound → Prop)
    (h : ∀ bound kind value, Kept bound → Kept (bound ++ [(⟨kind, count kind bound⟩, value)])) :
    Stepwise fun _ step _ =>
      ∀ bound a after, step.run bound = .ok (a, after) → Kept bound → Kept after where
  of_pure := by
    intro α a bound b after hrun hkept
    obtain ⟨_, rfl⟩ := run_pure_eq_ok_iff.1 hrun
    exact hkept
  of_throw := by
    intro α error _ bound a after hrun
    cases hrun
  bind := by
    intro α β first _ next _ hfirst hnext bound b after hrun hkept
    obtain ⟨a, middle, ha, hb⟩ := run_bind_eq_ok_iff.1 hrun
    exact hnext a middle b after hb (hfirst bound a middle ha hkept)
  of_bind := by
    intro kind value _ bound p after hrun hkept
    obtain ⟨rfl, rfl⟩ := Prod.mk.inj (Except.ok.inj hrun)
    exact h bound kind value hkept

def Ordered (bound : Bound) : Prop :=
  ∀ kind, (bound.filter fun entry => entry.1.kind == kind).map Prod.fst
    = (List.range (count kind bound)).map (⟨kind, ·⟩)

theorem ordered_append {bound : Bound} (h : Ordered bound) (kind : ParameterKind) (value : Json) :
    Ordered (bound ++ [(⟨kind, count kind bound⟩, value)]) := by
  intro other
  rw [List.filter_append, List.map_append, h other, count_append]
  by_cases hkind : kind = other
  · subst hkind
    simp [count, List.range_succ]
  · simp [count, hkind]

theorem ordered_compileQuery {query : Query} {program : Program}
    (hrun : (compileQuery query).run [] = .ok (program, bound)) : Ordered bound :=
  have hnone : Ordered [] := fun _ => rfl
  (stepwise_keeps Ordered fun _ kind value h => ordered_append h kind value).compileQuery_related
    query [] program bound hrun hnone

theorem numbered_compileQuery {query : Query} {program : Program}
    (hrun : (compileQuery query).run [] = .ok (program, bound)) : Numbered bound :=
  (stepwise_grows.compileQuery_related query [] program bound hrun).2 numbered_nil

theorem mem_keys_sent {key : String} (h : Numbered bound) :
    key ∈ (sent bound).map Prod.fst ↔ ∃ entry ∈ bound, entry.1.key = key := by
  constructor
  · intro hmem
    obtain ⟨found, hfound, rfl⟩ := List.mem_map.1 hmem
    obtain ⟨entry, hentry, rfl⟩ := List.mem_map.1 (Assoc.mem_of_mem_ofList hfound)
    exact ⟨entry, hentry, rfl⟩
  · rintro ⟨entry, hentry, rfl⟩
    have hvalue : Assoc.get? entry.1.key (sent bound) = some entry.2 := get?_sent h hentry
    exact List.mem_map_of_mem (f := Prod.fst) (Assoc.mem_of_get?_eq_some hvalue)

theorem parameter_of_getElem? (h : Ordered bound) {kind : ParameterKind} {k : Nat}
    {entry : Parameter × Json}
    (hentry : (bound.filter fun entry => entry.1.kind == kind)[k]? = some entry) :
    entry.1 = ⟨kind, k⟩ := by
  have hparameters := congrArg (·[k]?) (h kind)
  simp only [List.getElem?_map, hentry, Option.map_some] at hparameters
  obtain ⟨index, hindex, heq⟩ := Option.map_eq_some_iff.1 hparameters.symm
  obtain ⟨_, rfl⟩ := List.getElem?_eq_some_iff.1 hindex
  rw [← heq, List.getElem_range]

/-- Under the number `k` of a kind stands the value of that kind bound behind `k` others. -/
theorem get?_sent_eq (hnumbered : Numbered bound) (hordered : Ordered bound)
    (kind : ParameterKind) (k : Nat) :
    Assoc.get? (Parameter.key ⟨kind, k⟩) (sent bound) = (valuesOf kind bound)[k]? := by
  rw [valuesOf, List.getElem?_map]
  cases hentry : (bound.filter fun entry => entry.1.kind == kind)[k]? with
  | some entry =>
      have hmem := (List.mem_filter.1 (List.mem_of_getElem? hentry)).1
      rw [← parameter_of_getElem? hordered hentry]
      exact get?_sent hnumbered hmem
  | none =>
      cases hfound : Assoc.get? (Parameter.key ⟨kind, k⟩) (sent bound) with
      | none => rfl
      | some value =>
          have hkey : Parameter.key ⟨kind, k⟩ ∈ (sent bound).map Prod.fst :=
            List.mem_map_of_mem (f := Prod.fst) (Assoc.mem_of_get?_eq_some hfound)
          obtain ⟨entry, hentry', heq⟩ := (mem_keys_sent hnumbered).1 hkey
          have hlt := hnumbered.index_lt entry hentry'
          rw [Parameter.key_injective heq] at hlt
          have hle : count kind bound ≤ k := List.getElem?_eq_none_iff.1 hentry
          dsimp only at hlt
          omega

end Aql

namespace Query

/-- The text and what is sent along mention the same parameters, no parameter is bound twice, and
the parameter with the number `k` of a kind stands for the datum of that kind behind `k` others. -/
theorem parameters_stand_for_data {start : Start} {calls : List Call} {query : Query}
    {compiled : CompiledQuery} (hquery : build start calls = .ok query)
    (hcompiled : query.compile = .ok compiled) :
    (∃ lexemes, Aql.lexemes? compiled.text = some lexemes ∧
      ∀ key, .token (.parameter key) ∈ lexemes ↔ key ∈ compiled.bindVars.map Prod.fst) ∧
    (∃ program bound, (Aql.compileQuery query).run [] = .ok (program, bound) ∧
      compiled.text = program.text ∧ compiled.bindVars = Aql.sent bound ∧
      (bound.map fun entry => entry.1.key).Nodup) ∧
    ∀ kind k, Assoc.get? (Aql.Parameter.key ⟨kind, k⟩) compiled.bindVars
      = (query.data kind)[k]? := by
  have hresolved := (isResolved_build hquery).1
  obtain ⟨program, bound, hrun, htext, hvars⟩ := compile_eq_ok_iff.1 hcompiled
  have hnumbered := Aql.numbered_compileQuery hrun
  have hordered := Aql.ordered_compileQuery hrun
  have hnodes := Aql.compileQuery_eq_ok_iff.1 hrun
  obtain ⟨entries, hentries, hmentions, hvalues⟩ := Aql.binds_nodesRun hnodes
  obtain rfl : bound = entries := hentries
  rw [htext, hvars]
  refine ⟨⟨program.lexemes, hresolved.lexemes?_text hnodes, fun key => ?_⟩,
    ⟨program, bound, hrun, rfl, rfl, ?_⟩, fun kind k => ?_⟩
  · exact (hmentions key).trans (Aql.mem_keys_sent hnumbered).symm
  · have hnodup := hnumbered.nodup.map fun _ _ => Aql.Parameter.key_injective
    rwa [List.map_map] at hnodup
  · rw [Aql.get?_sent_eq hnumbered hordered, hvalues]
    rfl

def tradeCalls : List Call :=
  let harbours : Schema := ⟨"harbours", .document, [], true, []⟩
  [.filter (.any [.compare (.ofDotted "@value_1") .endsWith (.literal (.string "Star")),
      .negation (.all [])]),
    .traverse ⟨.outbound, 1, 2, .edgeCollections ["routes", "ferries"], ⟨"port", harbours⟩, none,
      none⟩,
    .joinOn "owner" ⟨"owners", .document, [], true, []⟩
      (.all [.any [], .compare (.ofAlias "port" "name") .eq (.literal (.string "Riga"))]),
    .traverse ⟨.any, 0, 1, .graph "trade", ⟨"stop", harbours⟩, none, some "port"⟩,
    .slice 5 10,
    .limit 3]

theorem parameters_stand_for_data_trade :
    ∃ query compiled, build (.documents ⟨"ships", .document, [], true, []⟩) tradeCalls = .ok query ∧
      query.compile = .ok compiled ∧
      query.data .value = [.string "Star", .bool true, .bool false, .string "Riga"] ∧
      Assoc.get? "value_3" compiled.bindVars = some (.string "Riga") ∧
      Assoc.get? "@edges_1" compiled.bindVars = some (.string "ferries") ∧
      Assoc.get? "count_2" compiled.bindVars = none ∧
      ∃ lexemes, Aql.lexemes? compiled.text = some lexemes ∧
        ∀ key, .token (.parameter key) ∈ lexemes ↔ key ∈ compiled.bindVars.map Prod.fst := by
  have hcompiles : ((build (.documents ⟨"ships", .document, [], true, []⟩) tradeCalls).bind
      compile).isOk = true := by
    decide +kernel
  have hdata : (build (.documents ⟨"ships", .document, [], true, []⟩) tradeCalls).toOption.map
      (fun query => (query.data .value, query.data .edges, query.data .count))
        = some ([.string "Star", .bool true, .bool false, .string "Riga"],
          [.string "routes", .string "ferries"], [.ofUInt64 10, .ofUInt64 3]) := by
    decide +kernel
  obtain ⟨compiled, hcompiles⟩ := Outcome.exists_of_isOk hcompiles
  obtain ⟨query, hquery, hcompiled⟩ := Outcome.bind_eq_ok_iff.1 hcompiles
  obtain ⟨htext, _, hvalues⟩ := parameters_stand_for_data hquery hcompiled
  rw [hquery] at hdata
  simp only [Except.toOption, Option.map_some, Option.some.injEq, Prod.mk.injEq] at hdata
  obtain ⟨hvalue, hedges, hcount⟩ := hdata
  refine ⟨query, compiled, hquery, hcompiled, hvalue, ?_, ?_, ?_, htext⟩
  · exact (hvalues .value 3).trans (congrArg (·[3]?) hvalue)
  · exact (hvalues .edges 1).trans (congrArg (·[1]?) hedges)
  · exact (hvalues .count 2).trans (congrArg (·[2]?) hcount)

end Query

end DocGraph
