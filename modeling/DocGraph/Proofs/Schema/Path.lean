import DocGraph.Proofs.Entity.RoundTrip
import DocGraph.Schema.Path
/-!
# What stands at a path

A path that a schema accepts ends at a reserved attribute, at a declared field, or where nothing is
declared.  In a document that the schema loads, what stands at a declared field is null or
something that its type reads, unless there is a codec on the way; of the reserved attributes this
holds only outside nested records.
-/

namespace DocGraph

open Outcome

/-! ## Values at paths -/

namespace Json

/-- The value at a path of names; null where there is nothing. -/
def valueAt : Json → List String → Json
  | json, [] => json
  | json, name :: rest => ((json.member? name).getD .null).valueAt rest
termination_by structural _ path => path

def isText : Json → Bool
  | null | string _ => true
  | _ => false

theorem valueAt_null (path : List String) : null.valueAt path = null := by
  induction path with
  | nil => rfl
  | cons name rest ih => exact ih

theorem valueAt_object (members : Members) (name : String) (rest : List String) :
    (object members).valueAt (name :: rest) =
      ((Assoc.get? name members).getD null).valueAt rest := rfl

end Json

/-! ## Ends of paths -/

inductive PathEnd where
  | reserved
  | declared (field : FieldSpec)
  | untyped

def PathEnd.type? : PathEnd → Option FieldType
  | reserved => some .string
  | declared field => some field.type
  | untyped => none

namespace Schema

/-- What a path without empty names ends at, if the path is accepted. -/
def pathEnd? (schema : Schema) : List String → Option PathEnd
  | [] => none
  | name :: rest =>
    if name ∈ reservedAttributes then
      if rest ≠ [] ∨ ((name = "_from" ∨ name = "_to") ∧ !schema.isEdge) then none
      else some .reserved
    else
      match schema.field? name with
      | none => if schema.isOpen then some .untyped else none
      | some field =>
        match rest, field.type with
        | [], _ => some (.declared field)
        | rest, .nested inner => inner.pathEnd? rest
        | _, .primitive .any => some .untyped
        | _, _ => none
termination_by structural path => path

/-- The type of a path is that of its end. -/
theorem pathType?_eq (schema : Schema) (path : List String) :
    schema.pathType? path = (schema.pathEnd? path).map PathEnd.type? := by
  induction path generalizing schema with
  | nil => rfl
  | cons name rest ih =>
      unfold pathType? pathEnd?
      by_cases hreserved : name ∈ reservedAttributes
      · rw [if_pos hreserved, if_pos hreserved]
        split <;> rfl
      · rw [if_neg hreserved, if_neg hreserved]
        cases schema.field? name with
        | none =>
            dsimp only
            split <;> rfl
        | some field =>
            cases rest with
            | nil => rfl
            | cons next rest =>
                dsimp only
                cases field.type with
                | nested inner => exact ih inner
                | primitive kind => cases kind <;> rfl
                | listOf item => rfl

theorem pathEnd?_of_resolvePath {schema : Schema} {path : List String} {type? : Option FieldType}
    (h : schema.resolvePath path = .ok type?) :
    "" ∉ path ∧ ∃ ending, schema.pathEnd? path = some ending ∧ ending.type? = type? := by
  unfold resolvePath at h
  by_cases hempty : "" ∈ path
  · simp [hempty] at h
  · rw [if_neg hempty, pathType?_eq] at h
    cases hend : schema.pathEnd? path with
    | none => simp [hend] at h
    | some ending => exact ⟨hempty, ending, rfl, by simpa [hend] using h⟩

def isPlainPath (schema : Schema) : List String → Bool
  | [] => true
  | name :: rest =>
    match schema.field? name with
    | none => true
    | some field =>
      field.codec?.isNone &&
        match field.type with
        | .nested inner => inner.isPlainPath rest
        | _ => true
termination_by structural path => path

/-! ## Documents that are loaded -/

variable [CustomCodecs]

theorem loadSlots_eq_mapM (fields : List FieldSpec) (members : Json.Members) :
    loadSlots fields members = fields.mapM fun field => field.loadSlot members := by
  induction fields with
  | nil => rfl
  | cons field fields ih =>
      rw [loadSlots, List.mapM_cons, ih]

end Schema

theorem FieldType.decode_nested_eq_ok [CustomCodecs] {field : String} {schema : Schema}
    {raw : Json} {value : Drawn Value}
    (h : (FieldType.nested schema).decode field raw = .ok value) :
    raw = .null ∨ ∃ members record, raw = .object members ∧
      schema.loadRecord members = .ok record := by
  unfold FieldType.decode at h
  cases raw with
  | null => exact .inl rfl
  | object members =>
      obtain ⟨record, hrecord, _⟩ := bind_eq_ok_iff.1 h
      exact .inr ⟨members, record, rfl, hrecord⟩
  | _ => simp at h

namespace Schema

theorem pathEnd?_cases {schema : Schema} {name : String} {rest : List String} {ending : PathEnd}
    (h : schema.pathEnd? (name :: rest) = some ending) :
    (name ∈ reservedAttributes ∧ rest = [] ∧ ending = .reserved) ∨
    (schema.isOpen = true ∧ ending = .untyped) ∨
    ∃ field, schema.field? name = some field ∧ ((rest = [] ∧ ending = .declared field) ∨
      (∃ inner, field.type = .nested inner ∧ inner.pathEnd? rest = some ending) ∨
      (field.type = .primitive .any ∧ ending = .untyped)) := by
  unfold pathEnd? at h
  split at h
  · rename_i hreserved
    split at h
    · simp at h
    · rename_i hallowed
      exact .inl ⟨hreserved, Classical.not_not.1 (not_or.1 hallowed).1, (Option.some.inj h).symm⟩
  · split at h
    · split at h
      · rename_i hopen
        exact .inr (.inl ⟨hopen, (Option.some.inj h).symm⟩)
      · simp at h
    · rename_i field hfield
      refine .inr (.inr ⟨field, hfield, ?_⟩)
      split at h
      · exact .inl ⟨rfl, (Option.some.inj h).symm⟩
      · exact .inr (.inl ⟨_, ‹_›, h⟩)
      · exact .inr (.inr ⟨‹_›, (Option.some.inj h).symm⟩)
      · simp at h

theorem pathEnd?_declared_cases {schema : Schema} {name : String} {rest : List String}
    {field : FieldSpec} (h : schema.pathEnd? (name :: rest) = some (.declared field)) :
    ∃ outer, schema.field? name = some outer ∧ ((rest = [] ∧ outer = field) ∨
      ∃ inner, outer.type = .nested inner ∧ inner.pathEnd? rest = some (.declared field)) := by
  rcases pathEnd?_cases h with ⟨_, _, heq⟩ | ⟨_, heq⟩ |
    ⟨outer, houter, ⟨hrest, heq⟩ | hnested | ⟨_, heq⟩⟩
  · cases heq
  · cases heq
  · cases heq
    exact ⟨_, houter, .inl ⟨hrest, rfl⟩⟩
  · exact ⟨outer, houter, .inr hnested⟩
  · cases heq

section

variable [CustomCodecs]

theorem exists_decode_of_field? {schema : Schema} {members : Json.Members}
    {record : Drawn Record} (h : schema.loadRecord members = .ok record) {name : String}
    {field : FieldSpec} (hfield : schema.field? name = some field) (hcodec : field.codec? = none) :
    Assoc.get? name members = none ∨ Assoc.get? name members = some .null ∨
      ∃ raw value, Assoc.get? name members = some raw ∧
        field.type.decode field.name raw = .ok value := by
  obtain ⟨rfl, hmem⟩ := field?_eq_some hfield
  obtain ⟨slots, _, hslots, _⟩ := loadRecord_cases h
  rw [loadSlots_eq_mapM] at hslots
  obtain ⟨slot, _, hslot⟩ := exists_result_of_mapM hslots field hmem
  rcases FieldSpec.loadSlot_cases hslot with ⟨hget, _⟩ | ⟨hget, _⟩ |
    ⟨raw, value, hget, _, _, hread⟩
  · exact .inl hget
  · exact .inr (.inl hget)
  · rcases hread with ⟨_, _, hsome, _⟩ | ⟨_, hvalue⟩
    · simp [hcodec] at hsome
    · exact .inr (.inr ⟨raw, value, hget, hvalue⟩)

/-- What stands at a declared field of a loaded record is null or read by the type of the field,
if there is no codec on the way. -/
theorem exists_decode_of_loadRecord {schema : Schema} {members : Json.Members}
    {record : Drawn Record} (h : schema.loadRecord members = .ok record) {path : List String}
    {field : FieldSpec} (hend : schema.pathEnd? path = some (.declared field))
    (hplain : schema.isPlainPath path = true) :
    (Json.object members).valueAt path = .null ∨ ∃ value,
      field.type.decode field.name ((Json.object members).valueAt path) = .ok value := by
  induction path generalizing schema members record with
  | nil => simp [pathEnd?] at hend
  | cons name rest ih =>
      obtain ⟨outer, houter, hend⟩ := pathEnd?_declared_cases hend
      simp only [isPlainPath, houter, Bool.and_eq_true, Option.isNone_iff_eq_none] at hplain
      rw [Json.valueAt_object]
      rcases exists_decode_of_field? h houter hplain.1 with
        hget | hget | ⟨raw, value, hget, hdecode⟩
      · rw [hget]
        exact .inl (Json.valueAt_null rest)
      · rw [hget]
        exact .inl (Json.valueAt_null rest)
      rw [hget, Option.getD_some]
      rcases hend with ⟨rfl, rfl⟩ | ⟨inner, hinner, hend⟩
      · exact .inr ⟨value, hdecode⟩
      -- Below a nested record the rest of the path goes on in what the record was loaded from.
      rw [hinner] at hdecode hplain
      rcases FieldType.decode_nested_eq_ok hdecode with rfl | ⟨members, record, rfl, hrecord⟩
      · exact .inl (Json.valueAt_null rest)
      · exact ih hrecord hend hplain.2

end

theorem pathEnd?_reserved_cases {schema : Schema} {name : String}
    (h : schema.pathEnd? [name] = some .reserved) :
    name ∈ reservedAttributes ∧ (name = "_from" ∨ name = "_to" → schema.isEdge = true) := by
  unfold pathEnd? at h
  by_cases hreserved : name ∈ reservedAttributes
  · rw [if_pos hreserved] at h
    refine ⟨hreserved, fun hside => ?_⟩
    split at h
    · simp at h
    · rename_i hallowed
      cases hedge : schema.isEdge with
      | true => rfl
      | false => exact absurd (.inr ⟨hside, by simp [hedge]⟩) hallowed
  · rw [if_neg hreserved] at h
    cases hfield : schema.field? name with
    | none =>
        rw [hfield] at h
        dsimp only at h
        split at h <;> simp at h
    | some field => simp [hfield] at h

theorem isText_of_identityAttribute {members : Json.Members} {name : String}
    {text : Option String} (h : identityAttribute members name = .ok text) :
    ((Json.object members).valueAt [name]).isText = true := by
  rw [Json.valueAt_object]
  unfold identityAttribute at h
  split at h
  · rename_i hget
    rw [hget]
    rfl
  · rename_i hget
    rw [hget]
    rfl
  · rename_i hget
    rw [hget]
    rfl
  · simp at h

theorem isText_of_requiredAttribute {members : Json.Members} {name text : String}
    (h : requiredAttribute members name = .ok text) :
    ((Json.object members).valueAt [name]).isText = true := by
  obtain ⟨found, hfound, _⟩ := bind_eq_ok_iff.1 h
  exact isText_of_identityAttribute hfound

/-- The reserved attributes of a loaded document are texts. -/
theorem isText_of_load [CustomCodecs] {schema : Schema} {members : Json.Members}
    {loaded : Drawn Entity} (h : schema.load members = .ok loaded) {name : String}
    (hend : schema.pathEnd? [name] = some .reserved) :
    ((Json.object members).valueAt [name]).isText = true := by
  obtain ⟨_, _, _, hkey, hid, hrev, _, _, _, hends⟩ := load_cases h .declared
  obtain ⟨hreserved, hedge⟩ := pathEnd?_reserved_cases hend
  simp only [reservedAttributes, List.mem_cons, List.not_mem_nil, or_false] at hreserved
  rcases hreserved with rfl | rfl | rfl | rfl | rfl
  · exact isText_of_identityAttribute hkey
  · exact isText_of_identityAttribute hid
  · exact isText_of_identityAttribute hrev
  · obtain ⟨_, _, hsource, _⟩ := hends (hedge (.inl rfl))
    exact isText_of_requiredAttribute hsource
  · obtain ⟨_, _, _, htarget, _⟩ := hends (hedge (.inr rfl))
    exact isText_of_requiredAttribute htarget

end Schema

/-! ## Types of paths -/

section

variable [CustomCodecs]

namespace FieldType

theorem exists_decode_string_iff {field : String} {raw : Json} :
    (∃ value, FieldType.string.decode field raw = .ok value) ↔ raw.isText = true := by
  cases raw <;> simp [FieldType.string, decode, Primitive.decode, Json.isText]

theorem exists_decode_any (field : String) (raw : Json) :
    ∃ value, FieldType.any.decode field raw = .ok value := ⟨fun _ => .json raw, rfl⟩

end FieldType

theorem FieldType.decode_rename : ∀ (type : FieldType) {field : String} (other : String)
    {raw : Json} {value : Drawn Value}, type.decode field raw = .ok value →
    type.decode other raw = .ok value
  | .primitive _, _, other, _, _, h => by
      obtain ⟨found, hfound, rfl⟩ := FieldType.decode_primitive_eq_ok_iff.1 h
      -- What is read depends on the name of the field only where it is an error.
      have hreads := Primitive.decode_eq_ok_iff.1 hfound
      exact FieldType.decode_primitive_eq_ok_iff.2
        ⟨found, Primitive.decode_eq_ok_iff.2 hreads, rfl⟩
  | .nested schema, _, other, _, _, h =>
      decode_nested_eq_ok_iff.2 (decode_nested_eq_ok_iff.1 h)
  | .listOf item, _, other, raw, value, h => by
      obtain hnull | ⟨raws, values, hraw, hvalues, hvalue⟩ := decode_listOf_eq_ok_iff.1 h
      · exact decode_listOf_eq_ok_iff.2 (.inl hnull)
      · have hrenamed : raws.mapM (fun raw => item.decode other raw) = .ok values :=
          mapM_eq_ok_of_forall (fun _ _ => item.decode_rename other) hvalues
        exact decode_listOf_eq_ok_iff.2 (.inr ⟨raws, values, hraw, hrenamed, hvalue⟩)

/-! ## What suits the type of a path -/

/-- Whether the type of a path reads what stands there.  The type says nothing of the codecs on the
way, and takes the attributes of a nested record that are named like reserved ones for texts. -/
def PathEnd.Suits (schema : Schema) (path : List String) (value : Json) : PathEnd → Prop
  | reserved => path.length = 1 ∨ value.isText = true
  | declared field => schema.isPlainPath path = true ∨ value = .null ∨
    ∃ read, field.type.decode field.name value = .ok read
  | untyped => True

/-- In a loaded document the type of a path reads what stands there exactly when it suits. -/
theorem Schema.exists_decode_iff_suits {schema : Schema} {members : Json.Members}
    {loaded : Drawn Entity} (h : schema.load members = .ok loaded) {path : List String}
    {pathEnd : PathEnd} (hend : schema.pathEnd? path = some pathEnd) (name : String) :
    ((Json.object members).valueAt path = .null ∨ ∃ value,
      (pathEnd.type?.getD .any).decode name ((Json.object members).valueAt path) = .ok value) ↔
      pathEnd.Suits schema path ((Json.object members).valueAt path) := by
  obtain ⟨record, _, hrecord, _⟩ := load_cases h .declared
  cases pathEnd with
  | reserved =>
      have hnull : (Json.object members).valueAt path = .null →
          ((Json.object members).valueAt path).isText = true := fun hnull => by
        rw [hnull]
        rfl
      have hlength : path.length = 1 → ((Json.object members).valueAt path).isText = true := by
        intro hlength
        obtain ⟨single, rfl⟩ := List.length_eq_one_iff.1 hlength
        exact isText_of_load h hend
      rw [PathEnd.type?, Option.getD_some, FieldType.exists_decode_string_iff]
      constructor
      · rintro (hvalue | htext)
        · exact .inr (hnull hvalue)
        · exact .inr htext
      · rintro (hvalue | htext)
        · exact .inr (hlength hvalue)
        · exact .inr htext
  | declared field =>
      rw [PathEnd.type?, Option.getD_some]
      constructor
      · rintro (hnull | ⟨value, hdecode⟩)
        · exact .inr (.inl hnull)
        · exact .inr (.inr ⟨value, field.type.decode_rename field.name hdecode⟩)
      · rintro (hplain | hnull | ⟨value, hdecode⟩)
        · exact (exists_decode_of_loadRecord hrecord hend hplain).imp_right
            fun ⟨value, hdecode⟩ => ⟨value, field.type.decode_rename name hdecode⟩
        · exact .inl hnull
        · exact .inr ⟨value, field.type.decode_rename name hdecode⟩
  | untyped =>
      exact ⟨fun _ => trivial, fun _ => .inr (FieldType.exists_decode_any name _)⟩

end

end DocGraph
