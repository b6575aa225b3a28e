import DocGraph.Proofs.Outcome
import DocGraph.Schema.Build
/-!
# What a built schema promises

A schema that is built is the declaration itself; its fields have different names, none of them
reserved, and defaults that fit.
-/

namespace DocGraph.Schema

open Outcome

theorem checkFieldName_eq_ok {schema name : String} {declared : List String}
    (h : checkFieldName schema declared name = .ok ()) :
    name ∉ reservedAttributes ∧ name ∉ declared := by
  unfold checkFieldName at h
  split at h
  · simp [invalid] at h
  · split at h
    · simp [invalid] at h
    · split at h
      · simp [invalid] at h
      · exact ⟨‹_›, ‹_›⟩

theorem checkFields_eq_ok {schema : String} {declared : List String} {fields : List FieldSpec}
    (h : checkFields schema declared fields = .ok ()) :
    (∀ field ∈ fields, field.name ∉ reservedAttributes ∧ field.name ∉ declared) ∧
      (fields.map FieldSpec.name).Nodup := by
  induction fields generalizing declared with
  | nil => simp
  | cons field fields ih =>
      obtain ⟨_, hname, h⟩ := bind_eq_ok_iff.1 h
      obtain ⟨_, _, h⟩ := bind_eq_ok_iff.1 h
      obtain ⟨hrest, hnodup⟩ := ih h
      have hhead := checkFieldName_eq_ok hname
      refine ⟨fun other hmem => ?_, ?_⟩
      · rcases List.mem_cons.1 hmem with rfl | hmem
        · exact hhead
        · obtain ⟨hreserved, hdeclared⟩ := hrest other hmem
          exact ⟨hreserved, fun hmem => hdeclared (List.mem_cons_of_mem _ hmem)⟩
      · rw [List.map_cons, List.nodup_cons]
        refine ⟨fun hmem => ?_, hnodup⟩
        obtain ⟨other, hother, hname⟩ := List.mem_map.1 hmem
        exact (hrest other hother).2 (hname ▸ List.mem_cons_self)

theorem checkDefault_eq_ok {schema : String} {field : FieldSpec} {value : Drawn Value}
    (h : checkDefault schema field = .ok ()) (hvalue : field.defaultValue? = some value) :
    ∃ accepted, field.accept (value .declared) = .ok accepted := by
  simp only [checkDefault, hvalue] at h
  split at h
  · exact ⟨_, ‹_›⟩
  · simp [invalid] at h

theorem checkDefault_of_checkFields {schema : String} {declared : List String}
    {fields : List FieldSpec} (h : checkFields schema declared fields = .ok ()) :
    ∀ field ∈ fields, checkDefault schema field = .ok () := by
  induction fields generalizing declared with
  | nil => simp
  | cons head fields ih =>
      obtain ⟨_, _, h⟩ := bind_eq_ok_iff.1 h
      obtain ⟨_, hdefault, h⟩ := bind_eq_ok_iff.1 h
      intro field hmem
      rcases List.mem_cons.1 hmem with rfl | hmem
      · exact hdefault
      · exact ih h field hmem

theorem build_eq_ok {declaration schema : Schema} (h : declaration.build = .ok schema) :
    schema = declaration ∧ checkFields schema.name [] schema.fields = .ok () := by
  simp only [build, invalid, error_bind] at h
  split at h
  · simp at h
  · obtain ⟨_, hfields, h⟩ := bind_eq_ok_iff.1 h
    split at h
    · simp at h
    · obtain ⟨_, _, h⟩ := bind_eq_ok_iff.1 h
      obtain rfl := Except.ok.inj h
      exact ⟨rfl, hfields⟩

theorem nodup_of_build {declaration schema : Schema} (h : declaration.build = .ok schema) :
    (schema.fields.map FieldSpec.name).Nodup :=
  (checkFields_eq_ok (build_eq_ok h).2).2

theorem not_reserved_of_build {declaration schema : Schema} (h : declaration.build = .ok schema)
    {name : String} (hname : name ∈ schema.fields.map FieldSpec.name) :
    name ∉ reservedAttributes := by
  obtain ⟨field, hmem, rfl⟩ := List.mem_map.1 hname
  exact ((checkFields_eq_ok (build_eq_ok h).2).1 field hmem).1

theorem field?_eq_some {schema : Schema} {name : String} {field : FieldSpec}
    (h : schema.field? name = some field) : field.name = name ∧ field ∈ schema.fields :=
  ⟨by simpa using List.find?_some h, List.mem_of_find?_eq_some h⟩

theorem field?_eq_none_iff {schema : Schema} {name : String} :
    schema.field? name = none ↔ name ∉ schema.fields.map FieldSpec.name := by
  simp [field?]

theorem not_reserved_of_field? {declaration schema : Schema}
    (h : declaration.build = .ok schema) {name : String} {field : FieldSpec}
    (hfield : schema.field? name = some field) : name ∉ reservedAttributes := by
  obtain ⟨rfl, hmem⟩ := field?_eq_some hfield
  exact not_reserved_of_build h (List.mem_map_of_mem hmem)

/-- The default of a field may be put into it as it was when the schema was built. -/
theorem accept_default_of_build {declaration schema : Schema} (h : declaration.build = .ok schema)
    {field : FieldSpec} (hmem : field ∈ schema.fields) {value : Drawn Value}
    (hvalue : field.defaultValue? = some value) :
    ∃ accepted, field.accept (value .declared) = .ok accepted :=
  checkDefault_eq_ok (checkDefault_of_checkFields (build_eq_ok h).2 field hmem) hvalue

end DocGraph.Schema
