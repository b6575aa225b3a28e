import DocGraph.Proofs.Entity.RoundTrip
import DocGraph.Proofs.Record.Made
/-!
# Loading keeps what it reads

An entity that is loaded from an object carries the attributes of the object: as a field, as an
extra field, as its identity or as an end.  The same holds of every object that is read into a
field, at any depth; what a codec reads is held as the codec has read it.  The only attributes that
are overlooked are reserved ones where nothing reads them: an end of something that is no edge, and
any of them in a part that is declared like a document or an edge.
-/

namespace DocGraph

open Outcome

/-! ## What values, records and entities carry -/

section

variable [CustomCodecs]

mutual

/-- Whether a value is what JSON was read as, with all that it holds. -/
def Value.Carries : Value → Json → Prop
  | .null, raw => raw = .null
  | .bool b, raw => raw = .bool b
  | .int i, raw => raw.asInt64? = some i
  | .float x, raw => raw.asFloat? = some x
  | .string s, raw => raw = .string s
  | .datetime instant, raw => raw.asString?.bind Instant.ofRfc3339? = some instant
  | .uuid id, raw => raw.asString?.bind Uuid.ofText? = some id
  | .list items, .array raws => itemsCarry items raws
  | .object record, .object members => ∀ name raw, Assoc.get? name members = some raw →
      raw ≠ .null → record.Carries name raw
  | .json value, raw => raw = value
  | _, _ => False
termination_by structural value => value

def itemsCarry : List Value → List Json → Prop
  | [], [] => True
  | item :: items, raw :: raws => item.Carries raw ∧ itemsCarry items raws
  | _, _ => False
termination_by structural items => items

/-- Whether a record holds an attribute, as the field of that name or beside the fields. -/
def Record.Carries : Record → String → Json → Prop
  | ⟨schema, slots, extras⟩, name, raw =>
    (name ∈ schema.fields.map FieldSpec.name ∧ slotsCarry schema.fields slots name raw) ∨
      (name, Value.json raw) ∈ extras
termination_by structural record => record

/-- What a field holds of its own: what its codec has read, or what was read without one.  A default
stands for no attribute. -/
def Slot.Carries (field : FieldSpec) : Slot → Json → Prop
  | .held value, raw =>
    match field.codec? with
    | some codec => codec.decode field.name raw = .ok value
    | none => value.Carries raw
  | .absent, _ | .defaulted _, _ => False
termination_by structural slot => slot

def slotsCarry : List FieldSpec → List Slot → String → Json → Prop
  | field :: fields, slot :: slots, name, raw =>
    (field.name = name → slot.Carries field raw) ∧ slotsCarry fields slots name raw
  | _, _, _, _ => True
termination_by structural _ slots => slots

end

def Entity.ends (entity : Entity) : List (String × Option Endpoint) :=
  [("_from", entity.source), ("_to", entity.target)]

def Entity.Carries (entity : Entity) (name : String) (raw : Json) : Prop :=
  entity.record.Carries name raw ∨ ∃ text, raw = .string text ∧
    ((name, some text) ∈ entity.identity.attributes ∨ (name, some (.id text)) ∈ entity.ends)

end

/-! ## What is overlooked -/

def hasAttribute (members : Json.Members) (name : String) : Bool :=
  (Assoc.get? name members).any fun raw => !raw.isNull

mutual

/-- Whether an object in a value of a type, at any depth, has a reserved attribute that nothing
reads. -/
def FieldType.overlooks : FieldType → Json → Bool
  | .nested schema, .object members => schema.overlooks [] members
  | .listOf item, .array raws => raws.any fun raw => item.overlooks raw
  | _, _ => false
termination_by structural type => type

def FieldSpec.overlooks : FieldSpec → Json.Members → Bool
  | ⟨name, type, _, _, _, codec?⟩, members =>
    codec?.isNone && (Assoc.get? name members).any fun raw => type.overlooks raw
termination_by structural field => field

def fieldsOverlook : List FieldSpec → Json.Members → Bool
  | [], _ => false
  | field :: fields, members => field.overlooks members || fieldsOverlook fields members
termination_by structural fields => fields

/-- Whether an object has a reserved attribute that its schema passes over and that is not kept
beside the record, or whether one of the objects in its fields does. -/
def Schema.overlooks : Schema → List String → Json.Members → Bool
  | ⟨_, kind, fields, _, _⟩, kept, members =>
    (kind != .embedded && Schema.reservedAttributes.any fun name =>
      !kept.contains name && hasAttribute members name) || fieldsOverlook fields members
termination_by structural schema => schema

end

/-- The reserved attributes that an entity keeps beside its record. -/
def Schema.keptAttributes (schema : Schema) : List String :=
  if schema.isEdge then reservedAttributes else ["_key", "_id", "_rev"]

/-! ## Values -/

section

variable [CustomCodecs]

theorem Primitive.carries_of_decode {kind : Primitive} {field : String} {raw : Json}
    {value : Value} (h : kind.decode field raw = .ok value) : value.Carries raw := by
  cases Primitive.decode_eq_ok_iff.1 h with
  | any | null | string | bool => rfl
  | int hread | integer hread | float _ hread | datetime hread | uuid hread => exact hread

theorem itemsCarry_iff_of_mapM {item : FieldType} {field : String} {raws : List Json}
    {values : List (Drawn Value)}
    (h : raws.mapM (fun raw => item.decode field raw) = .ok values)
    (hitem : ∀ raw value, item.decode field raw = .ok value →
      ∀ moment, ((value moment).Carries raw ↔ item.overlooks raw = false)) (moment : Moment) :
    itemsCarry (Drawn.all values moment) raws ↔
      (raws.any fun raw => item.overlooks raw) = false := by
  induction raws generalizing values moment with
  | nil =>
      obtain rfl := Except.ok.inj h
      simp [Drawn.all, itemsCarry]
  | cons raw raws ih =>
      obtain ⟨value, rest, hvalue, hrest, rfl⟩ := mapM_cons_eq_ok_iff.1 h
      rw [Drawn.all, itemsCarry, hitem raw value hvalue, ih hrest, List.any_cons,
        Bool.or_eq_false_iff]

/-! ## Fields -/

omit [CustomCodecs] in
theorem FieldType.overlooks_null (type : FieldType) : type.overlooks .null = false := by
  cases type <;> rfl

theorem FieldSpec.carries_iff_of_type {field : FieldSpec} {members : Json.Members}
    {slot : Drawn Slot} (h : field.loadSlot members = .ok slot) (moment : Moment)
    (htype : ∀ raw value, field.type.decode field.name raw = .ok value →
      ((value moment).Carries raw ↔ field.type.overlooks raw = false)) :
    (∀ raw, Assoc.get? field.name members = some raw → raw ≠ .null →
      (slot moment).Carries field raw) ↔ field.overlooks members = false := by
  obtain ⟨name, type, isRequired, default?, omitsDefault, codec?⟩ := field
  rcases FieldSpec.loadSlot_cases h with ⟨hget, -⟩ | ⟨hget, -, rfl⟩ |
    ⟨raw, value, hget, hnull, rfl, ⟨codec, found, hcodec, hfound, rfl⟩ | ⟨hcodec, hvalue⟩⟩
  · simp only at hget
    simp [hget, FieldSpec.overlooks]
  · simp only at hget
    simp [hget, FieldSpec.overlooks, FieldType.overlooks_null]
  · simp only at hget hcodec hfound
    simp [hget, FieldSpec.overlooks, hcodec, Slot.Carries, hfound]
  · simp only at hget hcodec hvalue htype
    simp [hget, hnull, FieldSpec.overlooks, hcodec, Slot.Carries, htype raw value hvalue]

theorem slotsCarry_iff_of_loadSlots {fields : List FieldSpec} {members : Json.Members}
    {slots : List (Drawn Slot)} (h : loadSlots fields members = .ok slots)
    (hfield : ∀ field ∈ fields, ∀ slot, field.loadSlot members = .ok slot → ∀ moment,
      ((∀ raw, Assoc.get? field.name members = some raw → raw ≠ .null →
        (slot moment).Carries field raw) ↔ field.overlooks members = false)) (moment : Moment) :
    (∀ name raw, Assoc.get? name members = some raw → raw ≠ .null →
      slotsCarry fields (Drawn.all slots moment) name raw) ↔
        fieldsOverlook fields members = false := by
  induction fields generalizing slots moment with
  | nil =>
      obtain rfl := Except.ok.inj h
      simp [Drawn.all, slotsCarry, fieldsOverlook]
  | cons field fields ih =>
      obtain ⟨slot, hslot, h⟩ := bind_eq_ok_iff.1 h
      obtain ⟨rest, hrest, h⟩ := bind_eq_ok_iff.1 h
      obtain rfl := Except.ok.inj h
      rw [fieldsOverlook, Bool.or_eq_false_iff,
        ← hfield field List.mem_cons_self slot hslot moment.first,
        ← ih hrest (fun field hmem => hfield field (List.mem_cons_of_mem _ hmem)) moment.later]
      simp only [Drawn.all, slotsCarry]
      constructor
      · intro hall
        exact ⟨fun raw hget hnull => (hall _ raw hget hnull).1 rfl,
          fun name raw hget hnull => (hall name raw hget hnull).2⟩
      · rintro ⟨hhead, hall⟩ name raw hget hnull
        exact ⟨fun hname => hhead raw (hname ▸ hget) hnull, hall name raw hget hnull⟩

/-! ## Records -/

omit [CustomCodecs] in
theorem hasAttribute_iff {members : Json.Members} {name : String} :
    hasAttribute members name = true ↔ ∃ raw, Assoc.get? name members = some raw ∧ raw ≠ .null := by
  have hnull (raw : Json) : raw.isNull = false ↔ raw ≠ .null := by
    cases raw <;> simp [Json.isNull]
  simp [hasAttribute, Option.any_eq_true, hnull]

theorem slotsCarry_of_not_mem {fields : List FieldSpec} {slots : List Slot} {name : String}
    (h : name ∉ fields.map FieldSpec.name) (raw : Json) : slotsCarry fields slots name raw := by
  induction fields generalizing slots with
  | nil => simp [slotsCarry]
  | cons field fields ih =>
      cases slots with
      | nil => simp [slotsCarry]
      | cons slot slots =>
          simp only [List.map_cons, List.mem_cons, not_or] at h
          exact ⟨fun hname => absurd hname.symm h.1, ih h.2⟩

namespace Schema

variable {schema : Schema} {members : Json.Members}

omit [CustomCodecs] in
/-- What is neither passed over nor declared goes into the extra fields. -/
theorem mem_extras_of_loadExtras {extras : List (String × Value)}
    (h : schema.loadExtras members = .ok extras) {name : String} {raw : Json}
    (hget : Assoc.get? name members = some raw) (hidentity : schema.isIdentity name = false)
    (hdeclared : name ∉ schema.fields.map FieldSpec.name) : (name, Value.json raw) ∈ extras := by
  rw [loadExtras_eq h]
  refine List.mem_map.2 ⟨(name, raw), ?_, rfl⟩
  have hposition : ¬(schema.position? name).isSome := mt isSome_position?_iff.1 hdeclared
  refine List.mem_filterMap.2 ⟨(name, raw), Assoc.mem_of_get?_eq_some hget, ?_⟩
  simp [hidentity, hposition]

/-- A record carries what is not kept beside it, unless something is overlooked. -/
theorem carries_iff_of_slots (hbuilt : schema.build = .ok schema) {kept : List String}
    (hkept : kept ⊆ reservedAttributes) {record : Drawn Record}
    (h : schema.loadRecord members = .ok record) (moment : Moment)
    (hslots : ∀ slots, loadSlots schema.fields members = .ok slots →
      ((∀ name raw, Assoc.get? name members = some raw → raw ≠ .null →
        slotsCarry schema.fields (Drawn.all slots moment) name raw) ↔
          fieldsOverlook schema.fields members = false)) :
    (∀ name raw, Assoc.get? name members = some raw → raw ≠ .null →
      name ∈ kept ∨ (record moment).Carries name raw) ↔
        schema.overlooks kept members = false := by
  obtain ⟨slots, extras, hload, hextras, rfl⟩ := loadRecord_cases h
  have hkeys := loadExtras_keys hextras
  have hoverlooks : schema.overlooks kept members = false ↔
      (schema.kind ≠ .embedded → ∀ name ∈ reservedAttributes, name ∉ kept →
        hasAttribute members name = false) ∧ fieldsOverlook schema.fields members = false := by
    obtain ⟨name, kind, fields, isOpen, keyFields⟩ := schema
    simp [overlooks]
  rw [hoverlooks, ← hslots slots hload]
  constructor
  · intro hall
    refine ⟨fun hkind name hreserved hleft => ?_, fun name raw hget hnull => ?_⟩
    · refine Bool.eq_false_iff.2 fun hattribute => ?_
      obtain ⟨raw, hget, hnull⟩ := hasAttribute_iff.1 hattribute
      have hidentity : schema.isIdentity name = true := (isIdentity_iff hkind).2 hreserved
      rcases hall name raw hget hnull with hmem | ⟨hdeclared, -⟩ | hextra
      · exact hleft hmem
      · exact not_reserved_of_build hbuilt hdeclared hreserved
      · have hkey := (hkeys name (List.mem_map_of_mem hextra)).1
        exact absurd (hidentity.symm.trans hkey) (by decide)
    · by_cases hdeclared : name ∈ schema.fields.map FieldSpec.name
      · rcases hall name raw hget hnull with hmem | ⟨-, hcarry⟩ | hextra
        · exact absurd (hkept hmem) (not_reserved_of_build hbuilt hdeclared)
        · exact hcarry
        · exact absurd hdeclared (hkeys name (List.mem_map_of_mem hextra)).2.1
      · exact slotsCarry_of_not_mem hdeclared raw
  · rintro ⟨hreserved, hcarry⟩ name raw hget hnull
    by_cases hdeclared : name ∈ schema.fields.map FieldSpec.name
    · exact .inr (.inl ⟨hdeclared, hcarry name raw hget hnull⟩)
    · cases hidentity : schema.isIdentity name with
      | false => exact .inr (.inr (mem_extras_of_loadExtras hextras hget hidentity hdeclared))
      | true =>
          simp only [isIdentity, Bool.and_eq_true, bne_iff_ne, ne_eq, List.contains_iff_mem]
            at hidentity
          by_contra hleft
          have hnone := hreserved hidentity.1 name hidentity.2 fun hmem => hleft (.inl hmem)
          exact absurd ((hasAttribute_iff.2 ⟨raw, hget, hnull⟩).symm.trans hnone) (by decide)

end Schema

mutual

/-- A value carries what it is read from, unless something in it is overlooked. -/
theorem FieldType.carries_iff_of_decode : ∀ (type : FieldType) {field : String} {raw : Json}
    {value : Drawn Value}, type.Made → type.decode field raw = .ok value →
    ∀ moment, ((value moment).Carries raw ↔ type.overlooks raw = false)
  | .primitive kind, _, raw, _, _, h, moment => by
      obtain ⟨found, hfound, rfl⟩ := FieldType.decode_primitive_eq_ok_iff.1 h
      have hcarries := Primitive.carries_of_decode hfound
      simp [FieldType.overlooks, hcarries]
  | .nested ⟨name, kind, fields, isOpen, keyFields⟩, _, raw, _, hmade, h, moment => by
      obtain ⟨rfl, rfl⟩ | ⟨members, record, rfl, hrecord, rfl⟩ :=
        FieldType.decode_nested_eq_ok_iff.1 h
      · simp [Value.Carries, FieldType.overlooks]
      · have hfields := fields_carry_iff fields hmade.schema.types members
        have hcarries := Schema.carries_iff_of_slots hmade.schema.built (List.nil_subset _)
          hrecord moment fun slots hslots => slotsCarry_iff_of_loadSlots hslots hfields moment
        simpa [Value.Carries, FieldType.overlooks] using hcarries
  | .listOf item, _, raw, _, hmade, h, moment => by
      obtain ⟨rfl, rfl⟩ | ⟨raws, values, rfl, hvalues, rfl⟩ :=
        FieldType.decode_listOf_eq_ok_iff.1 h
      · simp [Value.Carries, FieldType.overlooks]
      · exact itemsCarry_iff_of_mapM hvalues (fun raw value hvalue =>
          FieldType.carries_iff_of_decode item hmade.item hvalue) moment
termination_by structural type => type

theorem FieldSpec.carries_iff : ∀ (field : FieldSpec), field.type.Made →
    ∀ (members : Json.Members) slot, field.loadSlot members = .ok slot → ∀ moment,
    ((∀ raw, Assoc.get? field.name members = some raw → raw ≠ .null →
      (slot moment).Carries field raw) ↔ field.overlooks members = false)
  | ⟨_, type, _, _, _, _⟩, hmade, _, _, h, moment =>
      FieldSpec.carries_iff_of_type h moment fun _ _ hvalue =>
        FieldType.carries_iff_of_decode type hmade hvalue moment
termination_by structural field => field

theorem fields_carry_iff : ∀ (fields : List FieldSpec), (∀ field ∈ fields, field.type.Made) →
    ∀ (members : Json.Members), ∀ field ∈ fields, ∀ slot, field.loadSlot members = .ok slot →
    ∀ moment, ((∀ raw, Assoc.get? field.name members = some raw → raw ≠ .null →
      (slot moment).Carries field raw) ↔ field.overlooks members = false)
  | [], _, _, _, hmem => by simp at hmem
  | head :: fields, hmade, members, field, hmem => by
      obtain ⟨hhead, hrest⟩ := List.forall_mem_cons.1 hmade
      rcases List.mem_cons.1 hmem with heq | hmem
      · rw [heq]
        exact FieldSpec.carries_iff head hhead members
      · exact fields_carry_iff fields hrest members field hmem
termination_by structural fields => fields

end

/-! ## Entities -/

omit [CustomCodecs] in
theorem exists_text_of_identityAttribute {members : Json.Members} {name : String}
    {value : Option String} (h : identityAttribute members name = .ok value) {raw : Json}
    (hget : Assoc.get? name members = some raw) (hnull : raw ≠ .null) :
    ∃ text, raw = .string text ∧ value = some text := by
  unfold identityAttribute at h
  rw [hget] at h
  cases raw with
  | null => exact absurd rfl hnull
  | string text => exact ⟨text, rfl, (Except.ok.inj h).symm⟩
  | _ => simp at h

namespace Schema

variable {schema : Schema} {members : Json.Members} {loaded : Drawn Entity}

omit [CustomCodecs] in
theorem keptAttributes_subset (schema : Schema) : schema.keptAttributes ⊆ reservedAttributes := by
  unfold keptAttributes
  split
  · exact List.Subset.refl _
  · decide

/-- Only an edge has ends. -/
theorem ends_of_load (h : schema.load members = .ok loaded) (hedge : schema.isEdge = false)
    (moment : Moment) : (loaded moment).source = none ∧ (loaded moment).target = none := by
  obtain ⟨record, -, h⟩ := bind_eq_ok_iff.1 h
  obtain ⟨key, -, h⟩ := bind_eq_ok_iff.1 h
  obtain ⟨id, -, h⟩ := bind_eq_ok_iff.1 h
  obtain ⟨rev, -, h⟩ := bind_eq_ok_iff.1 h
  simp only [hedge] at h
  obtain rfl := Except.ok.inj h
  exact ⟨rfl, rfl⟩

/-- What an entity has beside its record has the name of an attribute that is kept there. -/
theorem mem_keptAttributes (h : schema.load members = .ok loaded) {moment : Moment}
    {name text : String} (hbeside : (name, some text) ∈ (loaded moment).identity.attributes ∨
      (name, some (.id text)) ∈ (loaded moment).ends) : name ∈ schema.keptAttributes := by
  rw [keptAttributes]
  cases hedge : schema.isEdge with
  | true =>
      simp only [Identity.attributes, Entity.ends, List.mem_cons, Prod.mk.injEq, List.not_mem_nil,
        or_false] at hbeside
      rcases hbeside with (⟨rfl, -⟩ | ⟨rfl, -⟩ | ⟨rfl, -⟩) | (⟨rfl, -⟩ | ⟨rfl, -⟩) <;> decide
  | false =>
      obtain ⟨hsource, htarget⟩ := ends_of_load h hedge moment
      simp only [Identity.attributes, Entity.ends, hsource, htarget, List.mem_cons, Prod.mk.injEq,
        List.not_mem_nil, or_false, reduceCtorEq, and_false] at hbeside
      rcases hbeside with ⟨rfl, -⟩ | ⟨rfl, -⟩ | ⟨rfl, -⟩ <;> decide

theorem exists_text_of_kept (h : schema.load members = .ok loaded) (moment : Moment)
    {name : String} {raw : Json} (hget : Assoc.get? name members = some raw) (hnull : raw ≠ .null)
    (hkept : name ∈ schema.keptAttributes) : ∃ text, raw = .string text ∧
      ((name, some text) ∈ (loaded moment).identity.attributes ∨
        (name, some (.id text)) ∈ (loaded moment).ends) := by
  obtain ⟨record, identity, -, hkey, hid, hrev, -, rfl, -, hends⟩ := load_cases h moment
  have hidentity (hname : name ∈ ["_key", "_id", "_rev"]) : ∃ text, raw = .string text ∧
      (name, some text) ∈ (loaded moment).identity.attributes := by
    simp only [List.mem_cons, List.not_mem_nil, or_false] at hname
    rcases hname with rfl | rfl | rfl
    · obtain ⟨text, rfl, hvalue⟩ := exists_text_of_identityAttribute hkey hget hnull
      exact ⟨text, rfl, by simp [Identity.attributes, hvalue]⟩
    · obtain ⟨text, rfl, hvalue⟩ := exists_text_of_identityAttribute hid hget hnull
      exact ⟨text, rfl, by simp [Identity.attributes, hvalue]⟩
    · obtain ⟨text, rfl, hvalue⟩ := exists_text_of_identityAttribute hrev hget hnull
      exact ⟨text, rfl, by simp [Identity.attributes, hvalue]⟩
  rw [keptAttributes] at hkept
  cases hedge : schema.isEdge with
  | true =>
      rw [if_pos hedge] at hkept
      obtain ⟨source, target, hsource, htarget, hsourceEq, htargetEq⟩ := hends hedge
      rcases List.mem_append.1 (show name ∈ ["_key", "_id", "_rev"] ++ ["_from", "_to"] from hkept)
        with hname | hname
      · obtain ⟨text, rfl, hmem⟩ := hidentity hname
        exact ⟨text, rfl, .inl hmem⟩
      · simp only [List.mem_cons, List.not_mem_nil, or_false] at hname
        rcases hname with rfl | rfl
        · rw [get?_eq_of_requiredAttribute hsource] at hget
          exact ⟨source, (Option.some.inj hget).symm, .inr (by simp [Entity.ends, hsourceEq])⟩
        · rw [get?_eq_of_requiredAttribute htarget] at hget
          exact ⟨target, (Option.some.inj hget).symm, .inr (by simp [Entity.ends, htargetEq])⟩
  | false =>
      rw [if_neg (by simp [hedge])] at hkept
      obtain ⟨text, rfl, hmem⟩ := hidentity hkept
      exact ⟨text, rfl, .inl hmem⟩

/-- An attribute is kept beside the record or in it. -/
theorem carries_iff_of_load (h : schema.load members = .ok loaded) (moment : Moment)
    {name : String} {raw : Json} (hget : Assoc.get? name members = some raw)
    (hnull : raw ≠ .null) : (loaded moment).Carries name raw ↔
      name ∈ schema.keptAttributes ∨ (loaded moment).record.Carries name raw := by
  constructor
  · rintro (hcarries | ⟨text, -, hbeside⟩)
    · exact .inr hcarries
    · exact .inl (mem_keptAttributes h hbeside)
  · rintro (hkept | hcarries)
    · exact .inr (exists_text_of_kept h moment hget hnull hkept)
    · exact .inl hcarries

/-- An entity that is loaded carries every attribute of its object, unless one is overlooked. -/
theorem load_carries_iff (hmade : schema.Made) (hload : schema.load members = .ok loaded)
    (moment : Moment) :
    (∀ name raw, Assoc.get? name members = some raw → raw ≠ .null →
      (loaded moment).Carries name raw) ↔
        schema.overlooks schema.keptAttributes members = false := by
  obtain ⟨record, _, hrecord, -, -, -, hsame, -⟩ := load_cases hload moment
  rw [← carries_iff_of_slots hmade.built schema.keptAttributes_subset hrecord moment
    fun slots hslots => slotsCarry_iff_of_loadSlots hslots
      (fields_carry_iff schema.fields hmade.types members) moment, ← hsame]
  exact forall₂_congr fun name raw => forall₂_congr fun hget hnull =>
    carries_iff_of_load hload moment hget hnull

end Schema

end

/-! ## Ships and pilots -/

namespace Schema

section

attribute [local instance] CustomCodecs.none

def portPart : Schema :=
  ⟨"port", .embedded, [⟨"code", .string, true, none, false, none⟩], false, []⟩

def shipSchema : Schema :=
  ⟨"ships", .document, [⟨"name", .string, true, none, false, none⟩,
    ⟨"ports", .listOf (.nested portPart), false, none, false, none⟩], true, []⟩

def shipMembers : Json.Members :=
  [("_key", .string "fram"), ("name", .string "Fram"),
    ("ports", .array [.object [("code", .string "OSL")], .null]), ("tonnage", .ofNat 402)]

theorem load_carries_iff_ship : shipSchema.Made ∧
    shipSchema.overlooks shipSchema.keptAttributes shipMembers = false ∧
    ∃ loaded, shipSchema.load shipMembers = .ok loaded ∧
      ∀ name raw, Assoc.get? name shipMembers = some raw → raw ≠ .null →
        (loaded .declared).Carries name raw := by
  have hport : portPart.Made := by
    refine made_of_isOk (by decide +kernel) ?_ ?_
    · simp [portPart, FieldType.string, FieldType.Made.primitive]
    · simp [portPart, FieldSpec.defaultValue?]
  have hship : shipSchema.Made := by
    refine made_of_isOk (by decide +kernel) ?_ ?_
    · simp [shipSchema, FieldType.string, FieldType.Made.primitive, FieldType.Made.listOf,
        FieldType.Made.nested hport]
    · simp [shipSchema, FieldSpec.defaultValue?]
  have hnone : shipSchema.overlooks shipSchema.keptAttributes shipMembers = false := by
    decide +kernel
  have hloads : (shipSchema.load shipMembers).isOk := by decide +kernel
  obtain ⟨loaded, hload⟩ := exists_of_isOk hloads
  exact ⟨hship, hnone, loaded, hload, (load_carries_iff hship hload .declared).2 hnone⟩

def pilotSchema : Schema := ⟨"pilots", .document, [], false, []⟩

def watchSchema : Schema :=
  ⟨"watches", .document, [⟨"pilot", .nested pilotSchema, false, none, false, none⟩], false, []⟩

/-- A closed schema of documents lets an end of an edge pass and forgets it, and a part that is
declared like a document forgets its key. -/
theorem not_load_carries_pilot :
    pilotSchema.Made ∧ watchSchema.Made ∧
    (∃ loaded, pilotSchema.load [("_from", .string "a/b")] = .ok loaded ∧
      ¬(loaded .declared).Carries "_from" (.string "a/b")) ∧
    ∃ loaded, watchSchema.load [("pilot", .object [("_key", .string "p")])] = .ok loaded ∧
      ¬(loaded .declared).Carries "pilot" (.object [("_key", .string "p")]) := by
  have hpilot : pilotSchema.Made := by
    refine made_of_isOk (by decide +kernel) ?_ ?_
    · simp [pilotSchema]
    · simp [pilotSchema]
  have htrip : watchSchema.Made := by
    refine made_of_isOk (by decide +kernel) ?_ ?_
    · simp [watchSchema, FieldType.Made.nested hpilot]
    · simp [watchSchema, FieldSpec.defaultValue?]
  refine ⟨hpilot, htrip, ⟨_, rfl, ?_⟩, _, rfl, ?_⟩
  · simp [Entity.Carries, Record.Carries, Identity.attributes, Entity.ends]
  · rintro (hcarries | ⟨text, htext, -⟩)
    · simp [Record.Carries, pilotSchema, Drawn.all, slotsCarry, Slot.Carries, Value.Carries,
        Assoc.get?] at hcarries
    · cases htext

end

end Schema

end DocGraph
