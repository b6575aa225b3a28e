import DocGraph.Proofs.Record.Readable
import DocGraph.Proofs.Schema.Path
import DocGraph.Proofs.Schema.Writable
/-!
# Attributes that a document can have

A query may ask for whatever stands at a path that the schema resolves.  For a schema without
codecs that is closed at every depth, some document of the schema has an attribute there, of the
type that the path is given; only a reserved attribute of a part of a document has a path that is
resolved, and no document with it is loaded.
-/

namespace DocGraph

open Outcome

/-! ## Closed schemas -/

mutual

def Schema.isClosed : Schema → Bool
  | ⟨_, _, fields, isOpen, _⟩ => !isOpen && fieldsClosed fields
termination_by structural schema => schema

def FieldType.isClosed : FieldType → Bool
  | .primitive _ => true
  | .nested schema => schema.isClosed
  | .listOf item => item.isClosed
termination_by structural type => type

def FieldSpec.isClosed : FieldSpec → Bool
  | ⟨_, type, _, _, _, _⟩ => type.isClosed
termination_by structural field => field

def fieldsClosed : List FieldSpec → Bool
  | [] => true
  | field :: fields => field.isClosed && fieldsClosed fields
termination_by structural fields => fields

end

/-! ## Samples -/

def SchemaKind.attributes : SchemaKind → Json.Members
  | embedded => []
  | document => [("_id", .string ""), ("_key", .string ""), ("_rev", .string "")]
  | edge => [("_from", .string ""), ("_id", .string ""), ("_key", .string ""),
      ("_rev", .string ""), ("_to", .string "")]

def Primitive.sample (filler : Json) : Primitive → Json
  | string => .string ""
  | int | float => .ofInt64 0
  | bool => .bool true
  | datetime => .string "1970-01-01T00:00:00Z"
  | uuid => .string "00000000-0000-0000-0000-000000000000"
  | any => filler

mutual

/-- A value that is read as one of a type, with all fields of nested records, and a given value
wherever any is allowed. -/
def FieldType.sample (filler : Json) : FieldType → Json
  | .primitive kind => kind.sample filler
  | .nested schema => .object (schema.sample filler)
  | .listOf _ => .array []
termination_by structural type => type

def Schema.sample (filler : Json) : Schema → Json.Members
  | ⟨_, kind, fields, _, _⟩ => Assoc.insertAll (sampleFields filler fields) kind.attributes
termination_by structural schema => schema

def FieldSpec.sample (filler : Json) : FieldSpec → String × Json
  | ⟨name, type, _, _, _, _⟩ => (name, type.sample filler)
termination_by structural field => field

def sampleFields (filler : Json) : List FieldSpec → Json.Members
  | [] => []
  | field :: fields => field.sample filler :: sampleFields filler fields
termination_by structural fields => fields

end

variable {filler : Json}

theorem sampleFields_eq_map (fields : List FieldSpec) :
    sampleFields filler fields =
      fields.map fun field => (field.name, field.type.sample filler) := by
  induction fields with
  | nil => rfl
  | cons field fields ih =>
      rw [sampleFields, ih]
      cases field
      rfl

theorem Primitive.exists_decode_sample (kind : Primitive) (field : String) :
    ∃ value, kind.decode field (kind.sample filler) = .ok value := by
  cases kind with
  | int => exact ⟨.int 0, decode_ofInt64 (.inl rfl) field 0⟩
  | float => exact ⟨.int 0, decode_ofInt64 (.inr rfl) field 0⟩
  | datetime =>
      obtain ⟨instant, hinstant⟩ := Option.isSome_iff_exists.1
        (by decide +kernel : (Instant.ofRfc3339? "1970-01-01T00:00:00Z").isSome = true)
      exact ⟨.datetime instant, by simp only [Primitive.decode, sample, hinstant]⟩
  | uuid =>
      obtain ⟨id, hid⟩ := Option.isSome_iff_exists.1
        (by decide +kernel : (Uuid.ofText? "00000000-0000-0000-0000-000000000000").isSome = true)
      exact ⟨.uuid id, by simp only [Primitive.decode, sample, hid]⟩
  | _ => exact ⟨_, rfl⟩

theorem FieldType.sample_ne_null (hfiller : filler ≠ .null) (type : FieldType) :
    type.sample filler ≠ .null := by
  cases type with
  | primitive kind =>
      cases kind <;> first | exact hfiller | simp [sample, Primitive.sample, Json.ofInt64]
  | _ => simp [sample]

namespace Schema

theorem sample_eq (schema : Schema) : schema.sample filler =
    Assoc.insertAll (schema.fields.map fun field => (field.name, field.type.sample filler))
      schema.kind.attributes := by
  rw [← sampleFields_eq_map]
  cases schema
  rfl

theorem get?_sample_of_field? {schema : Schema} (hbuilt : schema.build = .ok schema)
    {field : FieldSpec} (hfield : field ∈ schema.fields) :
    Assoc.get? field.name (schema.sample filler) = some (field.type.sample filler) := by
  have hkeys : ((schema.fields.map fun field => (field.name, field.type.sample filler)).map
      Prod.fst).Nodup := by
    simpa [Function.comp_def] using nodup_of_build hbuilt
  rw [sample_eq, Assoc.get?_insertAll hkeys, Assoc.get?_eq_some_of_mem hkeys
    (List.mem_map_of_mem hfield)]
  rfl

theorem get?_sample_of_not_mem {schema : Schema} {name : String}
    (hname : name ∉ schema.fields.map FieldSpec.name) :
    Assoc.get? name (schema.sample filler) = Assoc.get? name schema.kind.attributes := by
  rw [sample_eq, Assoc.get?_insertAll_of_not_mem]
  simpa [Function.comp_def] using hname

theorem mem_keys_of_sample {schema : Schema} {key : String}
    (h : key ∈ (schema.sample filler).map Prod.fst) :
    schema.isIdentity key = true ∨ key ∈ schema.fields.map FieldSpec.name := by
  rw [sample_eq] at h
  rcases Assoc.mem_keys_of_insertAll h with hfield | hattribute
  · exact .inr (by simpa [Function.comp_def] using hfield)
  · refine .inl ?_
    obtain ⟨name, kind, fields, isOpen, keyFields⟩ := schema
    cases kind <;> simp [SchemaKind.attributes] at hattribute
    · rcases hattribute with rfl | rfl | rfl <;> rfl
    · rcases hattribute with rfl | rfl | rfl | rfl | rfl <;> rfl

theorem loadExtras_of_forall {schema : Schema} {members : Json.Members}
    (h : ∀ key ∈ members.map Prod.fst,
      schema.isIdentity key = true ∨ key ∈ schema.fields.map FieldSpec.name) :
    schema.loadExtras members = .ok [] := by
  induction members with
  | nil => rfl
  | cons head members ih =>
      obtain ⟨key, raw⟩ := head
      obtain ⟨hkey, hrest⟩ := List.forall_mem_cons.1 h
      rw [loadExtras, if_pos, ih hrest]
      simpa [isSome_position?_iff] using hkey

/-- What a closed schema lets in are attributes and declared fields. -/
theorem mem_of_loadExtras {schema : Schema} (hclosed : schema.isOpen = false)
    {members : Json.Members} {extras : List (String × Value)}
    (h : schema.loadExtras members = .ok extras) :
    ∀ key ∈ members.map Prod.fst,
      schema.isIdentity key = true ∨ key ∈ schema.fields.map FieldSpec.name := by
  induction members with
  | nil => simp
  | cons head members ih =>
      obtain ⟨key, raw⟩ := head
      rw [loadExtras] at h
      split at h
      · rename_i hkey
        rw [Bool.or_eq_true, isSome_position?_iff] at hkey
        exact List.forall_mem_cons.2 ⟨hkey, ih h⟩
      · simp [hclosed] at h

end Schema

/-! ## Samples are loaded -/

section

variable [CustomCodecs]

mutual

theorem FieldType.exists_decode_sample (hfiller : filler ≠ .null) : ∀ (type : FieldType)
    (field : String), type.Made → type.hasCodec = false →
    ∃ value, type.decode field (type.sample filler) = .ok value
  | .primitive kind, field, _, _ => by
      obtain ⟨value, hvalue⟩ := kind.exists_decode_sample field
      exact ⟨fun _ => value, FieldType.decode_primitive_eq_ok_iff.2 ⟨value, hvalue, rfl⟩⟩
  | .nested schema, field, hmade, hcodec => by
      obtain ⟨record, hrecord⟩ :=
        Schema.exists_loadRecord_sample hfiller schema hmade.schema hcodec
      exact ⟨fun moment => .object (record moment), by
        simp [FieldType.decode, FieldType.sample, hrecord]⟩
  | .listOf _, _, _, _ => ⟨_, rfl⟩
termination_by structural type => type

theorem Schema.exists_loadRecord_sample (hfiller : filler ≠ .null) : ∀ (schema : Schema),
    schema.Made → schema.hasCodec = false →
    ∃ record, schema.loadRecord (schema.sample filler) = .ok record
  | ⟨name, kind, fields, isOpen, keyFields⟩, hmade, hcodec => by
      let schema : Schema := ⟨name, kind, fields, isOpen, keyFields⟩
      have hslot : ∀ field ∈ fields,
          ∃ slot, field.loadSlot (schema.sample filler) = .ok slot := fun field hmem => by
        obtain ⟨value, hnone, hvalue⟩ :=
          exists_decode_samples hfiller fields hmade.types hcodec field hmem
        exact ⟨_, FieldSpec.loadSlot_of_type (Schema.get?_sample_of_field? hmade.built hmem)
          (FieldType.sample_ne_null hfiller field.type) hnone hvalue⟩
      obtain ⟨slots, hslots⟩ := exists_mapM_eq_ok hslot
      rw [← Schema.loadSlots_eq_mapM] at hslots
      have hextras : schema.loadExtras (schema.sample filler) = .ok [] :=
        Schema.loadExtras_of_forall fun key hkey => Schema.mem_keys_of_sample hkey
      exact ⟨_, by simp only [schema, Schema.loadRecord, hslots, hextras, ok_bind]; rfl⟩
termination_by structural schema => schema

theorem FieldSpec.exists_decode_sample (hfiller : filler ≠ .null) : ∀ (field : FieldSpec),
    field.type.Made → field.hasCodec = false → ∃ value, field.codec? = none ∧
      field.type.decode field.name (field.type.sample filler) = .ok value
  | ⟨name, type, _, _, _, codec?⟩, hmade, hcodec => by
      obtain ⟨hnone, htype⟩ := Bool.or_eq_false_iff.1 hcodec
      obtain ⟨value, hvalue⟩ := FieldType.exists_decode_sample hfiller type name hmade htype
      exact ⟨value, by simpa using hnone, hvalue⟩
termination_by structural field => field

theorem exists_decode_samples (hfiller : filler ≠ .null) : ∀ (fields : List FieldSpec),
    (∀ field ∈ fields, field.type.Made) → fieldsHaveCodec fields = false →
    ∀ field ∈ fields, ∃ value, field.codec? = none ∧
      field.type.decode field.name (field.type.sample filler) = .ok value
  | [], _, _, _, hmem => by simp at hmem
  | head :: fields, hmade, hcodec, field, hmem => by
      obtain ⟨hhead, hrest⟩ := Bool.or_eq_false_iff.1 hcodec
      rcases List.mem_cons.1 hmem with heq | hmem
      · rw [heq]
        exact FieldSpec.exists_decode_sample hfiller head (hmade head List.mem_cons_self) hhead
      · exact exists_decode_samples hfiller fields (fun field hmem => hmade field
          (List.mem_cons_of_mem _ hmem)) hrest field hmem
termination_by structural fields => fields

end

end

theorem Json.membersOrdered_of_forall {members : Json.Members}
    (h : ∀ member ∈ members, member.2.isOrdered = true) :
    Json.membersOrdered members = true := by
  induction members with
  | nil => rfl
  | cons head members ih =>
      obtain ⟨hhead, hrest⟩ := List.forall_mem_cons.1 h
      exact Bool.and_eq_true_iff.2 ⟨hhead, ih hrest⟩

theorem SchemaKind.eq_empty_of_mem_attributes {kind : SchemaKind} {member : String × Json}
    (h : member ∈ kind.attributes) : member.2 = .string "" := by
  cases kind <;> simp only [attributes, List.mem_cons, List.not_mem_nil, or_false] at h
  · rcases h with rfl | rfl | rfl <;> rfl
  · rcases h with rfl | rfl | rfl | rfl | rfl <;> rfl

theorem SchemaKind.sorted_attributes (kind : SchemaKind) : Assoc.Sorted kind.attributes := by
  cases kind <;> simp only [Assoc.Sorted, attributes] <;> decide

mutual

theorem FieldType.isOrdered_sample (hfiller : filler.isOrdered = true) : ∀ (type : FieldType),
    (type.sample filler).isOrdered = true
  | .primitive kind => by cases kind <;> first | rfl | exact hfiller
  | .nested schema => Schema.isOrdered_sample hfiller schema
  | .listOf _ => rfl
termination_by structural type => type

theorem Schema.isOrdered_sample (hfiller : filler.isOrdered = true) : ∀ (schema : Schema),
    (Json.object (schema.sample filler)).isOrdered = true
  | ⟨name, kind, fields, isOpen, keyFields⟩ => by
      have hfields := isOrdered_samples hfiller fields
      refine Json.isOrdered_object.2 ⟨Assoc.sorted_insertAll kind.sorted_attributes,
        Json.membersOrdered_of_forall fun member hmem => ?_⟩
      rw [Schema.sample_eq] at hmem
      rcases Assoc.mem_of_mem_insertAll hmem with hfield | hattribute
      · obtain ⟨field, hdeclared, rfl⟩ := List.mem_map.1 hfield
        exact hfields field hdeclared
      · rw [SchemaKind.eq_empty_of_mem_attributes hattribute]
        rfl
termination_by structural schema => schema

theorem FieldSpec.isOrdered_sample (hfiller : filler.isOrdered = true) : ∀ (field : FieldSpec),
    (field.type.sample filler).isOrdered = true
  | ⟨_, type, _, _, _, _⟩ => FieldType.isOrdered_sample hfiller type
termination_by structural field => field

theorem isOrdered_samples (hfiller : filler.isOrdered = true) : ∀ (fields : List FieldSpec),
    ∀ field ∈ fields, (field.type.sample filler).isOrdered = true
  | [], _, hmem => by simp at hmem
  | head :: fields, field, hmem => by
      rcases List.mem_cons.1 hmem with heq | hmem
      · rw [heq]
        exact FieldSpec.isOrdered_sample hfiller head
      · exact isOrdered_samples hfiller fields field hmem
termination_by structural fields => fields

end

namespace Schema

theorem get?_attributes {kind : SchemaKind} (hkind : kind ≠ .embedded) {name : String}
    (hname : name ∈ reservedAttributes) (hside : name = "_from" ∨ name = "_to" → kind = .edge) :
    Assoc.get? name kind.attributes = some (.string "") := by
  simp only [reservedAttributes, List.mem_cons, List.not_mem_nil, or_false] at hname
  cases kind with
  | embedded => exact absurd rfl hkind
  | document =>
      rcases hname with rfl | rfl | rfl | rfl | rfl
      · rfl
      · rfl
      · rfl
      · simp at hside
      · simp at hside
  | edge => rcases hname with rfl | rfl | rfl | rfl | rfl <;> rfl

theorem get?_sample_of_reserved (filler : Json) {schema : Schema}
    (hbuilt : schema.build = .ok schema) {name : String} (hname : name ∈ reservedAttributes) :
    Assoc.get? name (schema.sample filler) = Assoc.get? name schema.kind.attributes :=
  get?_sample_of_not_mem fun hmem => not_reserved_of_build hbuilt hmem hname

theorem exists_identityAttribute_sample (filler : Json) {schema : Schema}
    (hbuilt : schema.build = .ok schema) {name : String} (hname : name ∈ reservedAttributes) :
    ∃ text?, identityAttribute (schema.sample filler) name = .ok text? := by
  unfold identityAttribute
  rw [get?_sample_of_reserved filler hbuilt hname]
  cases hget : Assoc.get? name schema.kind.attributes with
  | none => exact ⟨none, rfl⟩
  | some raw =>
      obtain rfl : raw = .string "" :=
        SchemaKind.eq_empty_of_mem_attributes (Assoc.mem_of_get?_eq_some hget)
      exact ⟨some "", rfl⟩

theorem requiredAttribute_sample (filler : Json) {schema : Schema}
    (hbuilt : schema.build = .ok schema) (hedge : schema.kind = .edge) {name : String}
    (hname : name ∈ reservedAttributes) :
    requiredAttribute (schema.sample filler) name = .ok "" := by
  have hget := get?_sample_of_reserved filler hbuilt hname
  rw [get?_attributes (by simp [hedge]) hname fun _ => hedge] at hget
  simp [requiredAttribute, identityAttribute, hget]

/-- A document with all attributes and fields of a schema is loaded. -/
theorem exists_load_sample [CustomCodecs] (hfiller : filler ≠ .null) {schema : Schema}
    (hmade : schema.Made) (hcodec : schema.hasCodec = false) :
    ∃ entity, schema.load (schema.sample filler) = .ok entity := by
  obtain ⟨record, hrecord⟩ := exists_loadRecord_sample hfiller schema hmade hcodec
  have hread : ∀ name ∈ reservedAttributes,
      ∃ text?, identityAttribute (schema.sample filler) name = .ok text? := fun _ hname =>
    exists_identityAttribute_sample filler hmade.built hname
  obtain ⟨key, hkey⟩ := hread "_key" (by decide)
  obtain ⟨id, hid⟩ := hread "_id" (by decide)
  obtain ⟨rev, hrev⟩ := hread "_rev" (by decide)
  cases hedge : schema.isEdge with
  | false => exact ⟨_, by simp only [load, hrecord, hkey, hid, hrev, ok_bind, hedge]; rfl⟩
  | true =>
      have hkind : schema.kind = .edge := by simpa [isEdge] using hedge
      have hsource := requiredAttribute_sample filler hmade.built hkind
        (by decide : "_from" ∈ reservedAttributes)
      have htarget := requiredAttribute_sample filler hmade.built hkind
        (by decide : "_to" ∈ reservedAttributes)
      exact ⟨_, by
        simp only [load, hrecord, hkey, hid, hrev, ok_bind, hedge, if_true, hsource, htarget]
        rfl⟩

end Schema

/-! ## Members at paths -/

namespace Json

def memberAt? : Json → List String → Option Json
  | json, [] => some json
  | json, name :: rest => (json.member? name).bind fun member => member.memberAt? rest
termination_by structural _ path => path

def nest : List String → Json
  | [] => .bool true
  | name :: rest => .object [(name, nest rest)]

theorem memberAt?_nest (path : List String) : (nest path).memberAt? path = some (.bool true) := by
  induction path with
  | nil => rfl
  | cons name rest ih =>
      rw [nest, memberAt?, member?, Assoc.get?, if_pos rfl]
      exact ih

theorem nest_ne_null (path : List String) : nest path ≠ .null := by
  cases path <;> simp [nest]

theorem isOrdered_nest (path : List String) : (nest path).isOrdered = true := by
  induction path with
  | nil => rfl
  | cons name rest ih => simp [nest, isOrdered, membersOrdered, ih]

theorem memberAt?_object_cons (members : Members) (name : String) (rest : List String) :
    (object members).memberAt? (name :: rest) =
      (Assoc.get? name members).bind fun member => member.memberAt? rest := rfl

end Json

namespace Schema

/-- Whether a path ends at a reserved attribute of a part of a document. -/
def endsInPart (schema : Schema) : List String → Bool
  | [] => false
  | [name] => schema.kind == .embedded && reservedAttributes.contains name
  | name :: next :: rest =>
    match schema.field? name with
    | none => false
    | some field =>
      match field.type with
      | .nested inner => inner.endsInPart (next :: rest)
      | _ => false
termination_by structural path => path

end Schema

theorem FieldSpec.codec?_of_hasCodec {field : FieldSpec} (h : field.hasCodec = false) :
    field.codec? = none ∧ field.type.hasCodec = false := by
  obtain ⟨name, type, isRequired, default?, omitsDefault, codec?⟩ := field
  simpa [hasCodec] using h

theorem hasCodec_of_mem {fields : List FieldSpec} (h : fieldsHaveCodec fields = false)
    {field : FieldSpec} (hmem : field ∈ fields) : field.hasCodec = false := by
  induction fields with
  | nil => simp at hmem
  | cons head fields ih =>
      obtain ⟨hhead, hrest⟩ := Bool.or_eq_false_iff.1 h
      rcases List.mem_cons.1 hmem with rfl | hmem
      · exact hhead
      · exact ih hrest hmem

theorem isClosed_of_mem {fields : List FieldSpec} (h : fieldsClosed fields = true)
    {field : FieldSpec} (hmem : field ∈ fields) : field.type.isClosed = true := by
  induction fields with
  | nil => simp at hmem
  | cons head fields ih =>
      obtain ⟨hhead, hrest⟩ := Bool.and_eq_true_iff.1 h
      rcases List.mem_cons.1 hmem with rfl | hmem
      · cases field
        exact hhead
      · exact ih hrest hmem

namespace Schema

theorem hasCodec_eq (schema : Schema) : schema.hasCodec = fieldsHaveCodec schema.fields := by
  cases schema
  rfl

theorem isClosed_eq (schema : Schema) :
    schema.isClosed = (!schema.isOpen && fieldsClosed schema.fields) := by
  cases schema
  rfl

section

variable [CustomCodecs]

/-- Whether some document with all attributes and fields of a schema has a value at a path, of a
type if one is given. -/
def SamplesHave (schema : Schema) (path : List String) (type? : Option FieldType) : Prop :=
  ∃ filler raw, filler ≠ .null ∧ filler.isOrdered = true ∧
    (Json.object (schema.sample filler)).memberAt? path = some raw ∧ raw ≠ .null ∧
    ∀ type, type? = some type → ∀ field, ∃ value, type.decode field raw = .ok value

structure IsPlain (schema : Schema) : Prop where
  made : schema.Made
  codec : schema.hasCodec = false
  closed : schema.isClosed = true

namespace IsPlain

variable {schema : Schema} (h : schema.IsPlain)
include h

theorem isOpen_eq_false : schema.isOpen = false := by
  have hclosed := h.closed
  rw [isClosed_eq, Bool.and_eq_true] at hclosed
  simpa using hclosed.1

theorem field {name : String} {field : FieldSpec} (hfield : schema.field? name = some field) :
    field.name = name ∧ field ∈ schema.fields ∧ field.codec? = none ∧
      field.type.hasCodec = false ∧ field.type.isClosed = true := by
  obtain ⟨hname, hmem⟩ := field?_eq_some hfield
  have hcodec := h.codec
  have hclosed := h.closed
  rw [hasCodec_eq] at hcodec
  rw [isClosed_eq, Bool.and_eq_true] at hclosed
  obtain ⟨hnone, htype⟩ := FieldSpec.codec?_of_hasCodec (hasCodec_of_mem hcodec hmem)
  exact ⟨hname, hmem, hnone, htype, isClosed_of_mem hclosed.2 hmem⟩

theorem nested {name : String} {field : FieldSpec} (hfield : schema.field? name = some field)
    {inner : Schema} (hinner : field.type = .nested inner) : inner.IsPlain := by
  obtain ⟨_, hmem, _, hcodec, hclosed⟩ := h.field hfield
  have hmade := h.made.types field hmem
  rw [hinner] at hmade hcodec hclosed
  exact ⟨hmade.schema, hcodec, hclosed⟩

theorem get?_sample {name : String} {field : FieldSpec} (hfield : schema.field? name = some field)
    (filler : Json) :
    Assoc.get? name (schema.sample filler) = some (field.type.sample filler) := by
  obtain ⟨rfl, hmem, _⟩ := h.field hfield
  exact get?_sample_of_field? h.made.built hmem

theorem samplesHave_reserved {name : String} (hend : schema.pathEnd? [name] = some .reserved)
    (hkind : schema.kind ≠ .embedded) : schema.SamplesHave [name] (some .string) := by
  obtain ⟨hreserved, hside⟩ := pathEnd?_reserved_cases hend
  have hget : Assoc.get? name (schema.sample (.bool true)) = some (.string "") := by
    rw [get?_sample_of_reserved _ h.made.built hreserved]
    exact get?_attributes hkind hreserved fun hname => by simpa [isEdge] using hside hname
  refine ⟨.bool true, .string "", by simp, rfl, ?_, by simp, ?_⟩
  · rw [Json.memberAt?_object_cons, hget]
    rfl
  · intro type htype field
    obtain rfl := Option.some.inj htype
    exact ⟨fun _ => .string "", rfl⟩

theorem samplesHave_declared {name : String} {field : FieldSpec}
    (hfield : schema.field? name = some field) :
    schema.SamplesHave [name] (some field.type) := by
  obtain ⟨_, hmem, _, hcodec, _⟩ := h.field hfield
  have htrue : Json.bool true ≠ .null := by simp
  refine ⟨.bool true, field.type.sample (.bool true), htrue, rfl, ?_,
    FieldType.sample_ne_null htrue _, ?_⟩
  · rw [Json.memberAt?_object_cons, h.get?_sample hfield]
    rfl
  · intro type htype other
    obtain rfl := Option.some.inj htype
    exact FieldType.exists_decode_sample htrue _ other (h.made.types field hmem) hcodec

/-- Below a field that takes anything there may be anything. -/
theorem samplesHave_any {name : String} {field : FieldSpec}
    (hfield : schema.field? name = some field) (htype : field.type = .primitive .any)
    (rest : List String) : schema.SamplesHave (name :: rest) none := by
  refine ⟨Json.nest rest, .bool true, Json.nest_ne_null rest, Json.isOrdered_nest rest, ?_,
    by simp, by simp⟩
  rw [Json.memberAt?_object_cons, h.get?_sample hfield, htype]
  exact Json.memberAt?_nest rest

theorem samplesHave_nested {name : String} {field : FieldSpec}
    (hfield : schema.field? name = some field) {inner : Schema}
    (hinner : field.type = .nested inner) {rest : List String} {type? : Option FieldType}
    (hrest : inner.SamplesHave rest type?) :
    schema.SamplesHave (name :: rest) type? := by
  obtain ⟨filler, raw, hfiller, hordered, hraw, hvalue⟩ := hrest
  refine ⟨filler, raw, hfiller, hordered, ?_, hvalue⟩
  rw [Json.memberAt?_object_cons, h.get?_sample hfield, hinner]
  exact hraw

/-- Whatever a path leads to is there in some sample, unless it is a reserved attribute of a part of
a document. -/
theorem samplesHave {path : List String} {ending : PathEnd}
    (hend : schema.pathEnd? path = some ending) (hpart : schema.endsInPart path = false) :
    schema.SamplesHave path ending.type? := by
  induction path generalizing schema with
  | nil => simp [pathEnd?] at hend
  | cons name rest ih =>
      rcases pathEnd?_cases hend with ⟨hreserved, rfl, rfl⟩ | ⟨hopen, _⟩ |
        ⟨field, hfield, ⟨rfl, rfl⟩ | ⟨inner, hinner, hrest⟩ | ⟨hany, rfl⟩⟩
      · exact h.samplesHave_reserved hend (by simpa [endsInPart, hreserved] using hpart)
      · simp [h.isOpen_eq_false] at hopen
      · exact h.samplesHave_declared hfield
      · refine h.samplesHave_nested hfield hinner (ih (h.nested hfield hinner) hrest ?_)
        cases rest with
        | nil => rfl
        | cons next rest => simpa [endsInPart, hfield, hinner] using hpart
      · exact h.samplesHave_any hfield hany rest

/-! ## Documents that are loaded -/

variable {members : Json.Members} {record : Drawn Record}

theorem get?_reserved_eq_none (hload : schema.loadRecord members = .ok record)
    (hkind : schema.kind = .embedded) {name : String} (hname : name ∈ reservedAttributes) :
    Assoc.get? name members = none := by
  obtain ⟨_, _, _, hextras, _⟩ := loadRecord_cases hload
  refine Assoc.get?_eq_none_of_not_mem fun hkey => ?_
  rcases mem_of_loadExtras h.isOpen_eq_false hextras name hkey with hidentity | hdeclared
  · simp [isIdentity, hkind] at hidentity
  · exact not_reserved_of_build h.made.built hdeclared hname

theorem loadRecord_nested (hload : schema.loadRecord members = .ok record) {name : String}
    {field : FieldSpec} (hfield : schema.field? name = some field) {inner : Schema}
    (hinner : field.type = .nested inner) :
    Assoc.get? name members = none ∨ Assoc.get? name members = some .null ∨
      ∃ within part, Assoc.get? name members = some (.object within) ∧
        inner.loadRecord within = .ok part := by
  obtain ⟨_, _, hnone, _⟩ := h.field hfield
  rcases exists_decode_of_field? hload hfield hnone with hget | hget |
    ⟨raw, value, hget, hdecode⟩
  · exact .inl hget
  · exact .inr (.inl hget)
  · rw [hinner] at hdecode
    rcases FieldType.decode_nested_eq_ok hdecode with rfl | ⟨within, part, rfl, hpart⟩
    · exact .inr (.inl hget)
    · exact .inr (.inr ⟨within, part, hget, hpart⟩)

/-- No document that is loaded has a reserved attribute in one of its parts. -/
theorem memberAt?_eq_none (hload : schema.loadRecord members = .ok record) {path : List String}
    (hpart : schema.endsInPart path = true) :
    (Json.object members).memberAt? path = none := by
  induction path generalizing schema members record with
  | nil => simp [endsInPart] at hpart
  | cons name rest ih =>
      rw [Json.memberAt?_object_cons]
      cases rest with
      | nil =>
          obtain ⟨hkind, hreserved⟩ : schema.kind = .embedded ∧ name ∈ reservedAttributes := by
            simpa [endsInPart] using hpart
          rw [h.get?_reserved_eq_none hload hkind hreserved]
          rfl
      | cons next rest =>
          unfold endsInPart at hpart
          split at hpart
          · simp at hpart
          · rename_i field hfield
            split at hpart
            · rename_i inner hinner
              rcases h.loadRecord_nested hload hfield hinner with hget | hget |
                ⟨within, part, hget, hwithin⟩
              · rw [hget]
                rfl
              · rw [hget]
                rfl
              · rw [hget]
                exact ih (h.nested hfield hinner) hwithin hpart
            · simp at hpart

end IsPlain

/-- Some document that a plain schema loads has a value at a path, of the type that the schema gives
the path, exactly if the path does not end at a reserved attribute of a part of a document. -/
theorem exists_document_iff {schema : Schema} (hmade : schema.Made)
    (hcodec : schema.hasCodec = false) (hclosed : schema.isClosed = true) {path : List String}
    {type? : Option FieldType} (hresolve : schema.resolvePath path = .ok type?) :
    (∃ members entity raw, (Json.object members).isOrdered = true ∧
      schema.load members = .ok entity ∧ (Json.object members).memberAt? path = some raw ∧
      raw ≠ .null ∧ ∀ type, type? = some type → ∀ field, ∃ value,
        type.decode field raw = .ok value) ↔
      schema.endsInPart path = false := by
  have hplain : schema.IsPlain := ⟨hmade, hcodec, hclosed⟩
  obtain ⟨_, ending, hend, rfl⟩ := pathEnd?_of_resolvePath hresolve
  constructor
  · rintro ⟨members, entity, raw, _, hload, hraw, _⟩
    obtain ⟨record, _, hrecord, _⟩ := load_cases hload .declared
    refine Bool.of_not_eq_true fun hpart => ?_
    rw [hplain.memberAt?_eq_none hrecord hpart] at hraw
    simp at hraw
  · intro hpart
    obtain ⟨filler, raw, hfiller, hordered, hraw, hvalue⟩ := hplain.samplesHave hend hpart
    obtain ⟨entity, hload⟩ := exists_load_sample hfiller hmade hcodec
    exact ⟨schema.sample filler, entity, raw, isOrdered_sample hordered schema, hload, hraw,
      hvalue⟩

end

/-! ## Legs of a voyage -/

section

attribute [local instance] CustomCodecs.none

def legPart : Schema :=
  ⟨"leg", .embedded, [⟨"miles", .primitive .float, true, none, false, none⟩,
    ⟨"remarks", .any, false, none, false, none⟩], false, []⟩

def voyageSchema : Schema :=
  ⟨"voyages", .edge, [⟨"leg", .nested legPart, true, none, false, none⟩], false, []⟩

theorem made_voyageSchema : voyageSchema.Made := by
  have hleg : legPart.Made := by
    refine made_of_isOk (by decide +kernel) ?_ ?_
    · simp [legPart, FieldType.any, FieldType.Made.primitive]
    · simp [legPart, FieldSpec.defaultValue?]
  refine made_of_isOk (by decide +kernel) ?_ ?_
  · simp [voyageSchema, FieldType.Made.nested hleg]
  · simp [voyageSchema, FieldSpec.defaultValue?]

theorem exists_document_iff_voyage :
    voyageSchema.Made ∧ voyageSchema.hasCodec = false ∧ voyageSchema.isClosed = true ∧
      voyageSchema.resolvePath ["leg", "miles"] = .ok (some (.primitive .float)) ∧
      ∃ members entity raw, (Json.object members).isOrdered = true ∧
        voyageSchema.load members = .ok entity ∧
        (Json.object members).memberAt? ["leg", "miles"] = some raw ∧
        ∃ value, (FieldType.primitive .float).decode "miles" raw = .ok value := by
  have hresolve : voyageSchema.resolvePath ["leg", "miles"] = .ok (some (.primitive .float)) := by
    rfl
  obtain ⟨members, entity, raw, hordered, hload, hraw, _, hvalue⟩ :=
    (exists_document_iff made_voyageSchema rfl rfl hresolve).2 (by rfl)
  exact ⟨made_voyageSchema, rfl, rfl, hresolve, members, entity, raw, hordered, hload, hraw,
    hvalue _ rfl "miles"⟩

/-- The key of a leg has a path with a type, but no voyage has a leg with a key. -/
theorem no_document_with_key :
    voyageSchema.resolvePath ["leg", "_key"] = .ok (some .string) ∧
      ∀ members entity, voyageSchema.load members = .ok entity →
        (Json.object members).memberAt? ["leg", "_key"] = none := by
  refine ⟨by rfl, fun members entity hload => ?_⟩
  obtain ⟨record, _, hrecord, _⟩ := load_cases hload .declared
  have hplain : voyageSchema.IsPlain := ⟨made_voyageSchema, rfl, rfl⟩
  exact hplain.memberAt?_eq_none hrecord (by rfl)

end

end Schema

end DocGraph
