import DocGraph.Proofs.Query.Scope
import Mathlib.Data.List.Nodup
/-!
# Conditions are resolved once

Resolving a condition looks at every field of it, on both sides of a comparison and at any depth,
and touches nothing but the fields.  What comes out names its aliases itself, so it means the same
in every query that is built on the one that resolved it: resolving it again leaves it as it is.
-/

namespace DocGraph

/-! ## Fields in their places -/

def Operand.mapFields (f : FieldRef → FieldRef) : Operand → Operand
  | .literal value => .literal value
  | .field found => .field (f found)

mutual
def Condition.mapFields (f : FieldRef → FieldRef) : Condition → Condition
  | .all parts => .all (Condition.mapFieldsOf f parts)
  | .any parts => .any (Condition.mapFieldsOf f parts)
  | .negation part => .negation (part.mapFields f)
  | .presence field isPresent => .presence (f field) isPresent
  | .compare field operator operand => .compare (f field) operator (operand.mapFields f)
termination_by structural condition => condition

def Condition.mapFieldsOf (f : FieldRef → FieldRef) : List Condition → List Condition
  | [] => []
  | part :: parts => part.mapFields f :: Condition.mapFieldsOf f parts
termination_by structural parts => parts
end

variable (f : FieldRef → FieldRef)

theorem Operand.fields_mapFields (operand : Operand) :
    (operand.mapFields f).fields = operand.fields.map f := by
  cases operand <;> rfl

mutual
theorem Condition.fields_mapFields : (condition : Condition) →
    (condition.mapFields f).fields = condition.fields.map f
  | .all parts => Condition.fieldsOf_mapFieldsOf parts
  | .any parts => Condition.fieldsOf_mapFieldsOf parts
  | .negation part => by
      rw [Condition.mapFields, Condition.fields, Condition.fields, fields_mapFields part]
  | .presence _ _ => rfl
  | .compare _ _ operand => congrArg (_ :: ·) (operand.fields_mapFields f)
termination_by structural condition => condition

theorem Condition.fieldsOf_mapFieldsOf : (parts : List Condition) →
    Condition.fieldsOf (Condition.mapFieldsOf f parts) = (Condition.fieldsOf parts).map f
  | [] => rfl
  | part :: parts => by
      rw [Condition.mapFieldsOf, Condition.fieldsOf, Condition.fieldsOf, List.map_append,
        fields_mapFields part, fieldsOf_mapFieldsOf parts]
termination_by structural parts => parts
end

mutual
theorem Condition.mapFields_id : (condition : Condition) → condition.mapFields id = condition
  | .all parts => congrArg Condition.all (Condition.mapFieldsOf_id parts)
  | .any parts => congrArg Condition.any (Condition.mapFieldsOf_id parts)
  | .negation part => congrArg Condition.negation (Condition.mapFields_id part)
  | .presence _ _ => rfl
  | .compare _ _ operand => by cases operand <;> rfl
termination_by structural condition => condition

theorem Condition.mapFieldsOf_id : (parts : List Condition) →
    Condition.mapFieldsOf id parts = parts
  | [] => rfl
  | part :: parts => by
      rw [Condition.mapFieldsOf, Condition.mapFields_id part, Condition.mapFieldsOf_id parts]
termination_by structural parts => parts
end

namespace Query

variable {query : Query} {f}

/-! ## Field by field -/

theorem resolveOperand_of_fields {operand : Operand}
    (h : ∀ field ∈ operand.fields, query.Resolves field (f field)) :
    query.resolveOperand operand = .ok (operand.mapFields f) := by
  cases operand with
  | literal value => rfl
  | field field =>
      have hfield : query.resolveField field = .ok (f field) := h field List.mem_cons_self
      simp [resolveOperand, hfield, Operand.mapFields]

mutual
/-- A condition is resolved by resolving its fields. -/
theorem resolve_of_fields : (condition : Condition) →
    (∀ field ∈ condition.fields, query.Resolves field (f field)) →
    query.resolve condition = .ok (condition.mapFields f)
  | .all parts, h => by simp [resolve, resolveParts_of_fields parts h, Condition.mapFields]
  | .any parts, h => by simp [resolve, resolveParts_of_fields parts h, Condition.mapFields]
  | .negation part, h => by simp [resolve, resolve_of_fields part h, Condition.mapFields]
  | .presence field _, h => by
      have hfield : query.resolveField field = .ok (f field) := h field List.mem_cons_self
      simp [resolve, hfield, Condition.mapFields]
  | .compare field _ operand, h => by
      obtain ⟨hfield, hoperand⟩ := List.forall_mem_cons.1 h
      have hfield : query.resolveField field = .ok (f field) := hfield
      simp [resolve, hfield, resolveOperand_of_fields hoperand, Condition.mapFields]
termination_by structural condition => condition

theorem resolveParts_of_fields : (parts : List Condition) →
    (∀ field ∈ Condition.fieldsOf parts, query.Resolves field (f field)) →
    query.resolveParts parts = .ok (Condition.mapFieldsOf f parts)
  | [], _ => rfl
  | part :: parts, h => by
      obtain ⟨hpart, hparts⟩ := List.forall_mem_append.1 h
      simp [resolveParts, resolve_of_fields part hpart, resolveParts_of_fields parts hparts,
        Condition.mapFieldsOf]
termination_by structural parts => parts
end

/-- A field with the alias and the type that a query gives it. -/
def completed (query : Query) (field : FieldRef) : FieldRef :=
  ⟨some (query.varOf field), field.path, query.declaredType? field⟩

theorem Resolves.eq_completed {field stored : FieldRef} (h : query.Resolves field stored) :
    stored = query.completed field := (resolveField_eq_ok h).2

theorem resolves_completed {fields stored : List FieldRef}
    (h : List.Forall₂ query.Resolves fields stored) :
    ∀ field ∈ fields, query.Resolves field (query.completed field) := by
  induction h with
  | nil => simp
  | cons hfirst _ ih =>
      obtain rfl := hfirst.eq_completed
      exact List.forall_mem_cons.2 ⟨hfirst, ih⟩

theorem resolve_eq_ok_iff {condition stored : Condition} :
    query.resolve condition = .ok stored ↔
      (∀ field ∈ condition.fields, query.Resolves field (query.completed field)) ∧
        stored = condition.mapFields query.completed := by
  constructor
  · intro h
    have hfields := resolves_completed (resolves_condition condition h)
    exact ⟨hfields, Except.ok.inj (h.symm.trans (resolve_of_fields condition hfields))⟩
  · rintro ⟨hfields, rfl⟩
    exact resolve_of_fields condition hfields

mutual
theorem exists_field_of_resolve_eq_error : (condition : Condition) → ∀ {error : Error},
    query.resolve condition = .error error →
      ∃ field ∈ condition.fields, query.resolveField field = .error error
  | .all parts, _, h => by
      rcases Outcome.bind_eq_error_iff.1 h with h | ⟨_, _, h⟩
      · exact exists_field_of_resolveParts_eq_error parts h
      · cases h
  | .any parts, _, h => by
      rcases Outcome.bind_eq_error_iff.1 h with h | ⟨_, _, h⟩
      · exact exists_field_of_resolveParts_eq_error parts h
      · cases h
  | .negation part, _, h => by
      rcases Outcome.bind_eq_error_iff.1 h with h | ⟨_, _, h⟩
      · have hpart := exists_field_of_resolve_eq_error part h
        exact hpart
      · cases h
  | .presence field _, _, h => by
      rcases Outcome.bind_eq_error_iff.1 h with h | ⟨_, _, h⟩
      · exact ⟨field, List.mem_cons_self, h⟩
      · cases h
  | .compare field _ operand, _, h => by
      -- What stands on the right is resolved first.
      rcases Outcome.bind_eq_error_iff.1 h with h | ⟨_, _, h⟩
      · cases operand with
        | literal value => cases h
        | field other =>
            rcases Outcome.bind_eq_error_iff.1 h with h | ⟨_, _, h⟩
            · exact ⟨other, List.mem_cons_of_mem _ List.mem_cons_self, h⟩
            · cases h
      · rcases Outcome.bind_eq_error_iff.1 h with h | ⟨_, _, h⟩
        · exact ⟨field, List.mem_cons_self, h⟩
        · cases h
termination_by structural condition => condition

theorem exists_field_of_resolveParts_eq_error : (parts : List Condition) → ∀ {error : Error},
    query.resolveParts parts = .error error →
      ∃ field ∈ Condition.fieldsOf parts, query.resolveField field = .error error
  | [], _, h => by cases h
  | part :: parts, _, h => by
      rcases Outcome.bind_eq_error_iff.1 h with h | ⟨_, _, h⟩
      · obtain ⟨field, hfield, herror⟩ := exists_field_of_resolve_eq_error part h
        exact ⟨field, List.mem_append_left _ hfield, herror⟩
      rcases Outcome.bind_eq_error_iff.1 h with h | ⟨_, _, h⟩
      · obtain ⟨field, hfield, herror⟩ := exists_field_of_resolveParts_eq_error parts h
        exact ⟨field, List.mem_append_right _ hfield, herror⟩
      · cases h
termination_by structural parts => parts
end

/-! ## Where a field belongs -/

/-- The binding that a field belongs to: the one of its alias, or else the current one. -/
def BelongsTo (query : Query) (field : FieldRef) (binding : Binding) : Prop :=
  match field.var? with
  | some var => binding ∈ query.bindings ∧ binding.var = var
  | none => binding = query.current

theorem IsScoped.binding?_eq_some_iff (hscoped : query.IsScoped) {var : String}
    {binding : Binding} :
    query.binding? var = some binding ↔ binding ∈ query.bindings ∧ binding.var = var := by
  constructor
  · exact mem_of_binding?
  · rintro ⟨hmem, rfl⟩
    have hsome : (query.binding? binding.var).isSome :=
      List.find?_isSome.2 ⟨binding, hmem, beq_self_eq_true _⟩
    obtain ⟨found, hfound⟩ := Option.isSome_iff_exists.1 hsome
    obtain ⟨hmem', hvar⟩ := mem_of_binding? hfound
    rw [hfound, List.inj_on_of_nodup_map hscoped.distinct hmem' hmem hvar]

theorem IsScoped.binding?_varOf_eq_some_iff (hscoped : query.IsScoped) {field : FieldRef}
    {binding : Binding} :
    query.binding? (query.varOf field) = some binding ↔ query.BelongsTo field binding := by
  rw [hscoped.binding?_eq_some_iff, varOf, BelongsTo]
  cases field.var? with
  | some var => rfl
  | none =>
      constructor
      · rintro ⟨hmem, hvar⟩
        exact List.inj_on_of_nodup_map hscoped.distinct hmem query.current_mem_bindings hvar
      · rintro rfl
        exact ⟨query.current_mem_bindings, rfl⟩

theorem IsScoped.resolveField_eq_ok_iff (hscoped : query.IsScoped) {field stored : FieldRef} :
    query.resolveField field = .ok stored ↔
      ∃ binding type?, query.BelongsTo field binding ∧
        binding.schema.resolvePath field.path = .ok type? ∧
        stored = ⟨some binding.var, field.path, type?⟩ := by
  simp only [← hscoped.binding?_varOf_eq_some_iff, varOf]
  unfold resolveField
  dsimp only
  cases hbinding : query.binding? (field.var?.getD query.current.var) with
  | none => simp
  | some binding =>
      have hvar : binding.var = field.var?.getD query.current.var := (mem_of_binding? hbinding).2
      cases htype : binding.schema.resolvePath field.path with
      | error error => simp [htype]
      | ok type? => simp [htype, hvar, @eq_comm _ stored]

/-- A field that is not resolved is unknown: to the query, or to the schema of its binding. -/
theorem resolveField_eq_error {field : FieldRef} {error : Error}
    (h : query.resolveField field = .error error) :
    ∃ scope, error = .unknownField field.dotted scope := by
  unfold resolveField at h
  dsimp only at h
  split at h
  · exact ⟨_, (Except.error.inj h).symm⟩
  · split at h
    · cases h
    · exact ⟨_, (Except.error.inj h).symm⟩

/-! ## Further calls -/

theorem binding?_appendNodes {nodes : List QueryNode} {var : String} {binding : Binding}
    (h : query.binding? var = some binding) :
    (query.appendNodes nodes).binding? var = some binding := by
  have hbindings : (query.appendNodes nodes).bindings
      = query.bindings ++ nodes.flatMap QueryNode.bindings := by
    simp [bindings, appendNodes]
  rw [binding?, hbindings, List.find?_append, ← binding?, h, Option.some_or]

/-- What a field was resolved to is resolved to itself, also when other aliases have become
current. -/
theorem resolves_appendNodes {nodes : List QueryNode} {field stored : FieldRef}
    (h : query.Resolves field stored) : (query.appendNodes nodes).Resolves stored stored := by
  unfold Resolves resolveField at h
  dsimp only at h
  cases hbinding : query.binding? (field.var?.getD query.current.var) with
  | none => simp [hbinding] at h
  | some binding =>
      cases htype : binding.schema.resolvePath field.path with
      | error error => simp [hbinding, htype] at h
      | ok type? =>
          simp only [hbinding, htype] at h
          obtain rfl := Except.ok.inj h
          simp [Resolves, resolveField, binding?_appendNodes hbinding, htype]

/-! ## Filters -/

theorem filter_eq_ok_iff {condition : Condition} {after : Query} :
    query.filter condition = .ok after ↔
      (∀ field ∈ condition.fields, query.Resolves field (query.completed field)) ∧
        after = query.push (.filter (condition.mapFields query.completed)) := by
  rw [filter, Outcome.bind_eq_ok_iff]
  constructor
  · rintro ⟨stored, hstored, hpush⟩
    obtain ⟨hfields, rfl⟩ := resolve_eq_ok_iff.1 hstored
    exact ⟨hfields, (Except.ok.inj hpush).symm⟩
  · rintro ⟨hfields, rfl⟩
    exact ⟨_, resolve_eq_ok_iff.2 ⟨hfields, rfl⟩, rfl⟩

/-- A filter is added exactly when the binding that each of its fields belongs to knows the path
of the field; else the error names a field of which this is not so.  What is added is the condition
with its fields completed, and it is added as it stands to every query that is built on this
one. -/
theorem filter_resolves {start : Start} {calls : List Call} {query : Query}
    (hquery : build start calls = .ok query) (condition : Condition) :
    ((∃ after, query.filter condition = .ok after) ↔ ∀ field ∈ condition.fields,
      ∃ binding type?, query.BelongsTo field binding ∧
        binding.schema.resolvePath field.path = .ok type?) ∧
    (∀ error, query.filter condition = .error error → ∃ field ∈ condition.fields,
      (∀ binding type?, query.BelongsTo field binding →
        binding.schema.resolvePath field.path ≠ .ok type?) ∧
      ∃ scope, error = .unknownField field.dotted scope) ∧
    ∀ after, query.filter condition = .ok after → ∃ complete : FieldRef → FieldRef,
      (∀ field ∈ condition.fields, ∃ binding type?, query.BelongsTo field binding ∧
        binding.schema.resolvePath field.path = .ok type? ∧
        complete field = ⟨some binding.var, field.path, type?⟩) ∧
      after = query.push (.filter (condition.mapFields complete)) ∧
      ∀ (more : List Call) (extended : Query), more.foldlM Call.apply query = .ok extended →
        extended.filter (condition.mapFields complete)
          = .ok (extended.push (.filter (condition.mapFields complete))) := by
  have hscoped := isScoped_build hquery
  refine ⟨⟨?_, fun hknown => ?_⟩, fun error herror => ?_, fun after hafter => ?_⟩
  · rintro ⟨after, hafter⟩ field hfield
    obtain ⟨binding, type?, hbinding, htype, _⟩ :=
      hscoped.resolveField_eq_ok_iff.1 ((filter_eq_ok_iff.1 hafter).1 field hfield)
    exact ⟨binding, type?, hbinding, htype⟩
  · refine ⟨_, filter_eq_ok_iff.2 ⟨fun field hfield => ?_, rfl⟩⟩
    obtain ⟨binding, type?, hbinding, htype⟩ := hknown field hfield
    have hresolves : query.Resolves field ⟨some binding.var, field.path, type?⟩ :=
      hscoped.resolveField_eq_ok_iff.2 ⟨binding, type?, hbinding, htype, rfl⟩
    exact hresolves.eq_completed ▸ hresolves
  · rcases Outcome.bind_eq_error_iff.1 herror with herror | ⟨_, _, herror⟩
    · obtain ⟨field, hfield, herror⟩ := exists_field_of_resolve_eq_error condition herror
      refine ⟨field, hfield, fun binding type? hbinding htype => ?_, resolveField_eq_error herror⟩
      have hresolves := hscoped.resolveField_eq_ok_iff.2 ⟨binding, type?, hbinding, htype, rfl⟩
      cases herror.symm.trans hresolves
    · cases herror
  · obtain ⟨hfields, rfl⟩ := filter_eq_ok_iff.1 hafter
    refine ⟨query.completed, fun field hfield => hscoped.resolveField_eq_ok_iff.1
      (hfields field hfield), rfl, fun more extended hmore => ?_⟩
    obtain ⟨nodes, rfl, _⟩ := appends_foldlM hmore
    have hstored : ∀ field ∈ (condition.mapFields query.completed).fields,
        (query.appendNodes nodes).Resolves field (id field) := by
      rw [Condition.fields_mapFields]
      intro stored hmem
      obtain ⟨field, hfield, rfl⟩ := List.mem_map.1 hmem
      exact resolves_appendNodes (hfields field hfield)
    rw [filter, resolve_of_fields _ hstored, Condition.mapFields_id]
    rfl

def moorings : Schema :=
  ⟨"moorings", .document, [
    ⟨"berth", .nested ⟨"berth", .embedded, [⟨"depth", .primitive .float, false, none, false, none⟩],
      false, []⟩, false, none, false, none⟩,
    ⟨"names", .listOf .string, false, none, false, none⟩], false, []⟩

def mooringQuery : Query :=
  ⟨⟨"ship", ⟨"ships", .document, [], true, []⟩⟩, [.join ⟨"mooring", moorings⟩]⟩

def deepEnough (path : List String) : Condition :=
  .negation (.any [
    .compare (.ofPath path) .lt (.field ⟨some "ship", ["draught"], none⟩),
    .all [],
    .presence (.ofPath ["names"]) false])

def mooringDeepEnough : Condition :=
  .negation (.any [
    .compare ⟨some "mooring", ["berth", "depth"], some (.primitive .float)⟩ .lt
      (.field ⟨some "ship", ["draught"], none⟩),
    .all [],
    .presence ⟨some "mooring", ["names"], some (.listOf .string)⟩ false])

/-- The condition is still one on the moorings when other documents have become current; and no
path goes beyond what the schema nests. -/
theorem filter_resolves_moorings :
    build (.aliased ⟨"ships", .document, [], true, []⟩ "ship") [.join "mooring" moorings]
      = .ok mooringQuery ∧
    mooringQuery.filter (deepEnough ["berth", "depth"])
      = .ok (mooringQuery.push (.filter mooringDeepEnough)) ∧
    (∀ field ∈ (deepEnough ["berth", "depth"]).fields, ∃ binding type?,
      mooringQuery.BelongsTo field binding ∧
        binding.schema.resolvePath field.path = .ok type?) ∧
    [Call.join "pier" moorings].foldlM Call.apply mooringQuery
      = .ok (mooringQuery.push (.join ⟨"pier", moorings⟩)) ∧
    (mooringQuery.push (.join ⟨"pier", moorings⟩)).filter mooringDeepEnough
      = .ok ((mooringQuery.push (.join ⟨"pier", moorings⟩)).push (.filter mooringDeepEnough)) ∧
    mooringQuery.filter (deepEnough ["berth", "depth", "unit"])
      = .error (.unknownField "berth.depth.unit" "moorings") ∧
    ∃ field ∈ (deepEnough ["berth", "depth", "unit"]).fields, ∀ binding type?,
      mooringQuery.BelongsTo field binding →
        binding.schema.resolvePath field.path ≠ .ok type? := by
  have hquery : build (.aliased ⟨"ships", .document, [], true, []⟩ "ship")
      [.join "mooring" moorings] = .ok mooringQuery := rfl
  have hafter : mooringQuery.filter (deepEnough ["berth", "depth"])
      = .ok (mooringQuery.push (.filter mooringDeepEnough)) := rfl
  have hmore : [Call.join "pier" moorings].foldlM Call.apply mooringQuery
      = .ok (mooringQuery.push (.join ⟨"pier", moorings⟩)) := rfl
  have herror : mooringQuery.filter (deepEnough ["berth", "depth", "unit"])
      = .error (.unknownField "berth.depth.unit" "moorings") := rfl
  obtain ⟨hknown, _, hadded⟩ := filter_resolves hquery (deepEnough ["berth", "depth"])
  obtain ⟨complete, _, hpush, hagain⟩ := hadded _ hafter
  have hstored : mooringDeepEnough = (deepEnough ["berth", "depth"]).mapFields complete := by
    simpa [push] using hpush
  obtain ⟨_, hunknown, _⟩ := filter_resolves hquery (deepEnough ["berth", "depth", "unit"])
  obtain ⟨field, hfield, hnowhere, _⟩ := hunknown _ herror
  exact ⟨hquery, hafter, hknown.1 ⟨_, hafter⟩, hmore, hstored ▸ hagain _ _ hmore, herror, field,
    hfield, hnowhere⟩

end Query

end DocGraph
