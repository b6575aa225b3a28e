import DocGraph.Proofs.Aql.Quotation
/-!
# Quoted names are read back from a query text

The fields of a query and the keys of its row are the parts of its text that quote names.  Each is
read back at its place, whatever characters its names are made of, and no text between them is
taken for a name.
-/

namespace DocGraph

/-! ## The names in a node -/

def ProjectionSource.fields : ProjectionSource → List FieldRef
  | .field found => [found]
  | .var _ => []

namespace QueryNode

def fields : QueryNode → List FieldRef
  | filter condition => condition.fields
  | sort keys => keys.map (·.field)
  | project attributes _ => attributes.flatMap fun projection => projection.source.fields
  | _ => []

def keys : QueryNode → List String
  | project attributes _ => attributes.map (·.name)
  | _ => []

def Quotes (node : QueryNode) : Aql.Quotation → Prop
  | .access a => ∃ field ∈ node.fields, field.var? = some a.base ∧ field.path = a.path
  | .key name => name ∈ node.keys

end QueryNode

mutual
theorem Condition.IsResolved.fields : (condition : Condition) → condition.IsResolved →
    ∀ field ∈ condition.fields, field.IsResolved
  | .all parts, h => Condition.IsResolved.fieldsOf parts h
  | .any parts, h => Condition.IsResolved.fieldsOf parts h
  | .negation part, h => Condition.IsResolved.fields part h
  | .presence _ _, h => List.forall_mem_singleton.2 h
  | .compare field _ operand, h => by
      refine List.forall_mem_cons.2 ⟨h.1, ?_⟩
      cases operand with
      | literal value => simp [Operand.fields]
      | field found => exact List.forall_mem_singleton.2 h.2
termination_by structural condition => condition

theorem Condition.IsResolved.fieldsOf : (parts : List Condition) →
    Condition.partsAreResolved parts → ∀ field ∈ Condition.fieldsOf parts, field.IsResolved
  | [], _ => by simp [Condition.fieldsOf]
  | part :: parts, h =>
      List.forall_mem_append.2
        ⟨Condition.IsResolved.fields part h.1, Condition.IsResolved.fieldsOf parts h.2⟩
termination_by structural parts => parts
end

theorem QueryNode.IsResolved.fields {node : QueryNode} (h : node.IsResolved) :
    ∀ field ∈ node.fields, field.IsResolved := by
  cases node with
  | filter condition => exact Condition.IsResolved.fields condition h
  | sort keys => exact List.forall_mem_map.2 h
  | project attributes row =>
      intro field hfield
      obtain ⟨projection, hprojection, hfield⟩ := List.mem_flatMap.1 hfield
      have hsource := (h.2 projection hprojection).source
      cases hkind : projection.source with
      | field found =>
          rw [hkind] at hsource hfield
          rw [List.mem_singleton.1 hfield]
          exact hsource
      | var name =>
          rw [hkind] at hfield
          cases hfield
  | _ => simp [QueryNode.fields]

namespace QueryNode

variable {node : QueryNode} {part : Aql.Quotation} {name : String}

/-- Whatever a resolved node quotes belongs to a variable. -/
theorem IsResolved.isNamed (h : node.IsResolved) (hpart : node.Quotes part) : part.IsNamed := by
  cases part with
  | access a =>
      obtain ⟨field, hfield, hbase, _⟩ := hpart
      obtain ⟨var, hvar, hvariable⟩ := (h.fields field hfield).var
      obtain rfl := Option.some.inj (hvar.symm.trans hbase)
      exact hvariable
  | key name => trivial

/-- The names that a resolved node quotes. -/
theorem IsResolved.exists_quotation_iff (h : node.IsResolved) :
    (∃ part, node.Quotes part ∧ name ∈ part.names) ↔
      (∃ field ∈ node.fields, name ∈ field.path) ∨ name ∈ node.keys := by
  constructor
  · rintro ⟨part, hpart, hname⟩
    cases part with
    | access a =>
        obtain ⟨field, hfield, _, hpath⟩ := hpart
        exact .inl ⟨field, hfield, hpath ▸ hname⟩
    | key key => exact .inr (List.mem_singleton.1 hname ▸ hpart)
  · rintro (⟨field, hfield, hname⟩ | hname)
    · obtain ⟨var, hvar, _⟩ := (h.fields field hfield).var
      exact ⟨.access ⟨var, field.path⟩, ⟨field, hfield, hvar, rfl⟩, hname⟩
    · exact ⟨.key name, hname, List.mem_singleton_self name⟩

end QueryNode

namespace Aql

variable {current : String}

theorem eq_access_iff {field : FieldRef} (h : field.IsResolved) {a : Access} :
    a = access current field ↔ field.var? = some a.base ∧ field.path = a.path := by
  obtain ⟨var, hvar, _⟩ := h.var
  obtain ⟨base, path⟩ := a
  simp [access, hvar, eq_comm]

/-- What a node quotes are its fields as they are written and its keys. -/
theorem quotes_iff (current : String) {node : QueryNode} (h : node.IsResolved) {part : Quotation} :
    node.Quotes part ↔ (∃ field ∈ node.fields, part = .access (access current field)) ∨
      ∃ name ∈ node.keys, part = .key name := by
  cases part with
  | access a =>
      simp only [QueryNode.Quotes, Quotation.access.injEq, reduceCtorEq, and_false, exists_false,
        or_false]
      refine exists_congr fun field => and_congr_right fun hfield => ?_
      exact (eq_access_iff (h.fields field hfield)).symm
  | key name => simp [QueryNode.Quotes]

/-! ## Statements -/

theorem quotes_sort {keys : List (Access × SortDirection)}
    (h : ∀ key ∈ keys, isVariable key.1.base = true) :
    Quotes (Statement.sort keys).text fun part => ∃ key ∈ keys, part = .access key.1 := by
  have hkey : ∀ key ∈ keys, Quotes (key.1.text ++ " " ++ directionText key.2)
      (· = .access key.1) := by
    intro key hkey
    have hdirection : IsUnquoted (directionText key.2) := by cases key.2 <;> decide
    exact ((quotes_access (h key hkey)).between (by decide) ⟨' ', _, rfl, rfl⟩
      (quotes_unquoted hdirection)).congr (by simp)
  have hlist := quotes_list (by decide : IsUnquoted ", ") ⟨',', _, rfl, rfl⟩ hkey
  exact hlist.behind (by decide : IsUnquoted "SORT ")

variable {node : QueryNode} {nodes : List QueryNode} {bound after : Bound} {program : Program}

theorem NodeRun.quotes {statement : Statement} (hrun : NodeRun current node bound statement after)
    (hnamed : node.IsNamed) (hresolved : node.IsResolved) :
    Quotes statement.text node.Quotes := by
  have hstatement := hrun.isNamed hnamed hresolved
  have hquotes (part : Quotation) : node.Quotes part ↔ _ := quotes_iff current hresolved
  have hnone (hunquoted : IsUnquoted statement.text) (hfields : node.fields = [])
      (hkeys : node.keys = []) : Quotes statement.text node.Quotes :=
    (quotes_unquoted hunquoted).congr fun part => by rw [hquotes]; simp [hfields, hkeys]
  cases hrun with
  | @filter condition formula _ _ hcondition =>
      refine ((quotes_formula formula hstatement).behind (by decide)).congr fun part => ?_
      rw [hquotes, accesses_condition current condition hcondition]
      simp [Quotation.IsAmong, QueryNode.fields, QueryNode.keys]
  | sort keys =>
      refine (quotes_sort hstatement).congr fun part => ?_
      rw [hquotes]
      simp [QueryNode.fields, QueryNode.keys]
  | limit hcount => exact hnone (isUnquoted_limit none _) rfl rfl
  | slice hoffset hcount => exact hnone (isUnquoted_limit (some _) _) rfl rfl
  | traverse hdepth hedges => exact hnone (isUnquoted_traverse _ _ _ _ hstatement) rfl rfl
  | join hcollection => exact hnone (isUnquoted_forEach _ hstatement) rfl rfl

/-! ## Programs -/

theorem quotes_source {source : ProjectionSource} (h : source.IsResolved) :
    Quotes (compileSource current source).text fun part =>
      ∃ field ∈ source.fields, part = .access (access current field) := by
  cases source with
  | field found =>
      exact (quotes_access (access_isResolved h).1).congr (by simp [ProjectionSource.fields])
  | var name =>
      exact (quotes_unquoted (isUnquoted_variable h)).congr (by simp [ProjectionSource.fields])

/-- An attribute of a row quotes its key and the field that it holds. -/
theorem quotes_projection (current : String) {projection : Projection}
    (h : projection.IsResolved) :
    Quotes (quote projection.name ++ ": " ++ (compileSource current projection.source).text)
      fun part => part = .key projection.name ∨
        ∃ field ∈ projection.source.fields, part = .access (access current field) := by
  have hcolon : quote projection.name ++ ": " = quote projection.name ++ ":" ++ " " := by
    rw [String.append_assoc]
    rfl
  rw [hcolon]
  exact (quotes_key projection.name).between (by decide) ⟨' ', _, rfl, rfl⟩
    (quotes_source h.source)

theorem quotes_row (current : String) {attributes : List Projection} {row : Schema}
    (h : (QueryNode.project attributes row).IsResolved) :
    Quotes (compileRow current attributes).text (QueryNode.project attributes row).Quotes := by
  have hcomma : IsUnquoted ", " := by decide
  have hlist := quotes_list hcomma ⟨',', _, rfl, rfl⟩ fun projection hprojection =>
    quotes_projection current (h.2 projection hprojection)
  rw [compileRow_eq, Result.text, List.map_map]
  refine ((hlist.behind (by decide)).before (by decide) ⟨'\x7d', _, rfl, rfl⟩).congr fun part => ?_
  rw [quotes_iff current h]
  simp only [QueryNode.fields, QueryNode.keys, List.mem_flatMap, List.mem_map,
    exists_exists_and_eq_and]
  grind

theorem NodesRun.quotes (hrun : NodesRun current nodes bound program after)
    (hcurrent : isVariable current = true)
    (hnodes : ∀ node ∈ nodes, node.IsNamed ∧ node.IsResolved) :
    Quotes program.text fun part => ∃ node ∈ nodes, node.Quotes part := by
  induction hrun with
  | document current bound =>
      have hreturn : IsUnquoted ("RETURN " ++ current) :=
        .append (by decide) (isUnquoted_variable hcurrent)
      exact (quotes_unquoted hreturn).congr (by simp)
  | row current attributes row bound =>
      have hrow := quotes_row current (hnodes _ List.mem_cons_self).2
      exact (hrow.behind (by decide : IsUnquoted "RETURN ")).congr (by simp)
  | node hnode hrest ih =>
      obtain ⟨⟨hnamed, hresolved⟩, hothers⟩ := List.forall_mem_cons.1 hnodes
      have hbody := ih (isVariable_next hnamed hcurrent) hothers
      rw [Program.text_cons]
      exact ((hnode.quotes hnamed hresolved).between (by decide) ⟨' ', _, rfl, rfl⟩ hbody).congr
        (by simp)

/-! ## Reading a text -/

/-- Whether a part stands in a text outside of all quoted names and is read there as it is. -/
def Quotation.IsReadIn (text : String) : Quotation → Prop
  | access a => ∃ before after, text = before ++ a.text ++ after ∧ IsClosed before ∧
      readAccess (a.text ++ after) = (a, after)
  | key name => ∃ before after, text = before ++ quote name ++ ":" ++ after ∧ IsClosed before ∧
      readQuoted? (quote name ++ ":" ++ after) = some (name, ":" ++ after)

variable {text : String} {parts : Quotation → Prop} {part : Quotation}

theorem Quotes.exists_eq (h : Quotes text parts) (hpart : parts part) :
    ∃ before after, text = before ++ part.text ++ after ∧ IsClosed before ∧ IsBehind after := by
  have hshown := h.shown part hpart "" (.inl rfl)
  rwa [String.append_empty] at hshown

theorem Quotes.isReadIn (h : Quotes text parts) (hpart : parts part) (hnamed : part.IsNamed) :
    part.IsReadIn text := by
  obtain ⟨before, after, htext, hbefore, hafter⟩ := h.exists_eq hpart
  cases part with
  | access a => exact ⟨before, after, htext, hbefore, readAccess_append hnamed hafter⟩
  | key name =>
      refine ⟨before, after, ?_, hbefore, ?_⟩
      · rw [htext, Quotation.text, ← String.append_assoc]
      · rw [String.append_assoc, readQuoted?_quote_append]

/-- The names that a text quotes are those in its parts. -/
theorem Quotes.exists_names (h : Quotes text parts)
    (hnamed : ∀ part, parts part → part.IsNamed) :
    ∃ names, quotedNames? text.toList = some names ∧
      ∀ name, name ∈ names ↔ ∃ part, parts part ∧ name ∈ part.names := by
  obtain ⟨names, hnames, hall⟩ := h.quoted
  refine ⟨names, hnames, fun name => ⟨hall name, ?_⟩⟩
  rintro ⟨part, hpart, hname⟩
  obtain ⟨before, after, htext, hbefore, _⟩ := h.exists_eq hpart
  obtain ⟨others, hothers⟩ := Option.isSome_iff_exists.1 hbefore
  rw [htext, String.append_assoc, String.toList_append, String.toList_append,
    quotedNames?_append hothers, quotedNames?_quotation (hnamed part hpart)] at hnames
  cases hrest : quotedNames? after.toList with
  | none => simp [hrest] at hnames
  | some rest =>
      rw [hrest] at hnames
      obtain rfl := Option.some.inj hnames
      simp [hname]

end Aql

namespace Query

open Aql

/-- A quoted name is read back whatever stands behind it.  So whoever reads a compiled text comes to
every field and every key outside of all other names and reads there the variable and the names
that were given, and finds no other names in the text. -/
theorem quoted_names_read :
    (∀ name rest, readQuoted? (quote name ++ rest) = some (name, rest)) ∧
    ∀ start calls query compiled, build start calls = .ok query → query.compile = .ok compiled →
      (∀ node ∈ query.nodes,
        (∀ field ∈ node.fields, ∃ var, field.var? = some var ∧
          (Quotation.access ⟨var, field.path⟩).IsReadIn compiled.text) ∧
        ∀ name ∈ node.keys, (Quotation.key name).IsReadIn compiled.text) ∧
      ∃ names, quotedNames? compiled.text.toList = some names ∧
        ∀ name, name ∈ names ↔ ∃ node ∈ query.nodes,
          (∃ field ∈ node.fields, name ∈ field.path) ∨ name ∈ node.keys := by
  refine ⟨readQuoted?_quote_append, fun start calls query compiled hquery hcompiled => ?_⟩
  have hresolved := (isResolved_build hquery).1
  obtain ⟨program, bound, hrun, htext, _⟩ := compile_eq_ok_iff_run.1 hcompiled
  have hquotes := hrun.quotes (hresolved.named query.root List.mem_cons_self) hresolved.steps
  rw [← htext] at hquotes
  have hread {node : QueryNode} {part : Quotation} (hnode : node ∈ query.nodes)
      (hpart : node.Quotes part) : part.IsReadIn compiled.text :=
    hquotes.isReadIn ⟨node, List.mem_cons_of_mem _ hnode, hpart⟩
      ((hresolved.nodes node hnode).isNamed hpart)
  refine ⟨fun node hnode => ⟨fun field hfield => ?_, fun name hname => hread hnode hname⟩, ?_⟩
  · obtain ⟨var, hvar, _⟩ := ((hresolved.nodes node hnode).fields field hfield).var
    exact ⟨var, hvar, hread hnode ⟨field, hfield, hvar, rfl⟩⟩
  · obtain ⟨names, hnames, hall⟩ := hquotes.exists_names fun part ⟨node, hnode, hpart⟩ =>
      (hresolved.steps node hnode).2.isNamed hpart
    refine ⟨names, hnames, fun name => ?_⟩
    rw [hall]
    constructor
    · rintro ⟨part, ⟨node, hnode, hpart⟩, hname⟩
      have hquoted := (hresolved.steps node hnode).2.exists_quotation_iff.1 ⟨part, hpart, hname⟩
      rcases List.mem_cons.1 hnode with rfl | hnode
      · simp [QueryNode.fields, QueryNode.keys] at hquoted
      · exact ⟨node, hnode, hquoted⟩
    · rintro ⟨node, hnode, hquoted⟩
      obtain ⟨part, hpart, hname⟩ :=
        (hresolved.nodes node hnode).exists_quotation_iff.2 hquoted
      exact ⟨part, ⟨node, List.mem_cons_of_mem _ hnode, hpart⟩, hname⟩

/-- A path of names that are full of quotes, escapes, signs, spaces and words of the language. -/
def oddPath : List String := ["a\x60b\\", "@x == 1 RETURN"]

def oddCalls : List Call :=
  [.filter (.compare (.ofPath oddPath) .endsWith (.field (.ofPath ["\\\x60"]))),
    .project [⟨"FILTER \x60: \\", .field (.ofPath oddPath)⟩]]

theorem quoted_names_read_odd :
    ∃ query compiled, build (.aliased ⟨"ships", .document, [], true, []⟩ "ship") oddCalls
        = .ok query ∧ query.compile = .ok compiled ∧
      (Quotation.access ⟨"ship", oddPath⟩).IsReadIn compiled.text ∧
      (Quotation.key "FILTER \x60: \\").IsReadIn compiled.text := by
  have hcompiles : ((build (.aliased ⟨"ships", .document, [], true, []⟩ "ship") oddCalls).bind
      compile).isOk = true := by
    decide +kernel
  have hfacts : (build (.aliased ⟨"ships", .document, [], true, []⟩ "ship") oddCalls).toOption.map
      (fun query => query.nodes.map fun node =>
        (node.fields.map fun field => (field.var?, field.path), node.keys)) =
        some [([(some "ship", oddPath), (some "ship", ["\\\x60"])], []),
          ([(some "ship", oddPath)], ["FILTER \x60: \\"])] := by
    decide +kernel
  obtain ⟨compiled, hcompiles⟩ := Outcome.exists_of_isOk hcompiles
  obtain ⟨query, hquery, hcompiled⟩ := Outcome.bind_eq_ok_iff.1 hcompiles
  obtain ⟨hread, _⟩ := quoted_names_read.2 _ _ query compiled hquery hcompiled
  rw [hquery] at hfacts
  have hnodes := Option.some.inj hfacts
  obtain ⟨row, hrow, hfields, hkeys⟩ : ∃ row ∈ query.nodes,
      row.fields.map (fun field => (field.var?, field.path)) = [(some "ship", oddPath)] ∧
        row.keys = ["FILTER \x60: \\"] := by
    obtain ⟨row, hrow, hfacts⟩ :=
      List.mem_map.1 (hnodes ▸ List.mem_cons_of_mem _ List.mem_cons_self)
    exact ⟨row, hrow, Prod.mk.inj hfacts⟩
  obtain ⟨field, hfield, hfacts⟩ := List.mem_map.1 (hfields ▸ List.mem_cons_self)
  obtain ⟨hvar, hpath⟩ := Prod.mk.inj hfacts
  obtain ⟨var, hvar', hattribute⟩ := (hread row hrow).1 field hfield
  obtain rfl := Option.some.inj (hvar'.symm.trans hvar)
  rw [hpath] at hattribute
  exact ⟨query, compiled, hquery, hcompiled, hattribute,
    (hread row hrow).2 _ (hkeys ▸ List.mem_cons_self)⟩

end Query

end DocGraph
