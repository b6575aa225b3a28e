import DocGraph.Entity.Wire
import DocGraph.Proofs.Drawn
import DocGraph.Proofs.Outcome
import DocGraph.Proofs.Schema.Trim
/-!
# Loading and dumping are inverse

Dumping what was loaded gives the object back without the members that its schema omits.  Values,
fields and records are treated together, by induction on the schema; the attributes of
a document's identity and the ends of an edge come on top.
-/

namespace DocGraph

open Outcome

/-! ## Values -/

theorem Json.ofInt64_of_asInt64? {raw : Json} {i : Int64} (h : raw.asInt64? = some i) :
    Json.ofInt64 i = raw := by
  cases raw with
  | number number =>
      cases number with
      | integer k fits =>
          simp only [Json.asInt64?] at h
          split at h
          · rename_i hk
            obtain rfl := Option.some.inj h
            simp only [Json.ofInt64, Int64.toInt_ofInt_of_le fits.1 hk]
          · simp at h
      | float x finite => simp [Json.asInt64?] at h
  | _ => simp [Json.asInt64?] at h

theorem Instant.millis_of_ofMillis? {millis : Int} {instant : Instant}
    (h : Instant.ofMillis? millis = some instant) : instant.millis = millis := by
  unfold Instant.ofMillis? Instant.ofUnix? at h
  split at h
  · split at h
    · obtain rfl := Option.some.inj h
      simp only [Instant.millis]
      omega
    · simp at h
  · simp at h

/-- The law of a codec that writes what it has read as it was.  Null has no part in it: a field
reads and writes it without its codec. -/
def FieldCodec.WritesBack (codec : FieldCodec) : Prop :=
  ∀ field raw value, raw ≠ .null → codec.decode field raw = .ok value →
    value ≠ .null ∧ codec.encode field value = .ok raw

theorem FieldCodec.writesBack_epochMillis : epochMillis.WritesBack := by
  intro field raw value _ h
  simp only [epochMillis] at h
  split at h
  · rename_i instant hinstant
    obtain rfl := Except.ok.inj h
    obtain ⟨i, hi, hmillis⟩ := Option.bind_eq_some_iff.1 hinstant
    have hback := Instant.millis_of_ofMillis? hmillis
    refine ⟨by simp, ?_⟩
    simp only [epochMillis, hback, Int64.ofInt_toInt, Json.ofInt64_of_asInt64? hi]
  · simp at h

theorem Codec.writesBack_of_custom [CustomCodecs] {codec : Codec}
    (h : ∀ number, codec = .custom number → (CustomCodecs.codec number).WritesBack) :
    codec.meaning.WritesBack := by
  cases codec with
  | epochMillis => exact FieldCodec.writesBack_epochMillis
  | custom number => exact h number rfl

theorem Json.eq_float_of_asInt64?_eq_none {raw : Json} {x : Binary64}
    (hint : raw.asInt64? = none) (hfloat : raw.asFloat? = some x)
    (hcanonical : Primitive.float.isCanonical raw) :
    ∃ finite, raw = .number (.float x finite) := by
  cases raw with
  | number number =>
      cases number with
      | integer k fits =>
          have hk : k < 2 ^ 63 := of_decide_eq_true hcanonical
          simp [Json.asInt64?] at hint
          omega
      | float y finite =>
          obtain rfl := Option.some.inj hfloat
          exact ⟨finite, rfl⟩
  | _ => simp [Json.asFloat?] at hfloat

/-- What a scalar is read from, and as what. -/
inductive Primitive.Reads : Primitive → Json → Value → Prop
  | any (raw : Json) : Primitive.Reads .any raw (.json raw)
  | null {kind : Primitive} (h : kind ≠ .any) : Primitive.Reads kind .null .null
  | string (s : String) : Primitive.Reads .string (.string s) (.string s)
  | bool (b : Bool) : Primitive.Reads .bool (.bool b) (.bool b)
  | int {raw : Json} {i : Int64} (h : raw.asInt64? = some i) : Primitive.Reads .int raw (.int i)
  | integer {raw : Json} {i : Int64} (h : raw.asInt64? = some i) :
    Primitive.Reads .float raw (.int i)
  | float {raw : Json} {x : Binary64} (hint : raw.asInt64? = none) (h : raw.asFloat? = some x) :
    Primitive.Reads .float raw (.float x)
  | datetime {s : String} {instant : Instant} (h : Instant.ofRfc3339? s = some instant) :
    Primitive.Reads .datetime (.string s) (.datetime instant)
  | uuid {s : String} {id : Uuid} (h : Uuid.ofText? s = some id) :
    Primitive.Reads .uuid (.string s) (.uuid id)

namespace Primitive

variable {kind : Primitive} {field : String} {raw : Json} {value : Value}

theorem reads_of_decode (h : kind.decode field raw = .ok value) : kind.Reads raw value := by
  by_cases hnull : raw = .null
  · subst hnull
    cases kind <;> obtain rfl := Except.ok.inj h
    case any => exact .any .null
    all_goals exact .null (by decide)
  cases kind with
  | any =>
      obtain rfl := Except.ok.inj h
      exact .any raw
  | string =>
      cases raw <;> simp [decode] at h hnull
      subst h
      exact .string _
  | bool =>
      cases raw <;> simp [decode] at h hnull
      subst h
      exact .bool _
  | int =>
      simp only [decode] at h
      split at h
      · rename_i i hi
        obtain rfl := Except.ok.inj h
        exact .int hi
      · simp at h
  | float =>
      simp only [decode] at h
      split at h
      · rename_i i _ hi
        obtain rfl := Except.ok.inj h
        exact .integer hi
      · rename_i x hint hx
        obtain rfl := Except.ok.inj h
        exact .float hint hx
      · simp at h
  | datetime =>
      cases raw <;> simp [decode] at h hnull
      split at h
      · rename_i instant hread
        obtain rfl := Except.ok.inj h
        exact .datetime hread
      · simp at h
  | uuid =>
      cases raw <;> simp [decode] at h hnull
      split at h
      · rename_i id hread
        obtain rfl := Except.ok.inj h
        exact .uuid hread
      · simp at h

theorem decode_eq_ok_iff : kind.decode field raw = .ok value ↔ kind.Reads raw value := by
  refine ⟨reads_of_decode, fun h => ?_⟩
  cases h with
  | any => rfl
  | null h =>
      cases kind with
      | any => exact absurd rfl h
      | _ => rfl
  | string => rfl
  | bool => rfl
  | int h => cases raw <;> first | cases h | simp only [decode, h]
  | integer h => cases raw <;> first | cases h | simp only [decode, h]
  | float hint h => cases raw <;> first | cases h | simp only [decode, hint, h]
  | datetime h => simp only [decode, h]
  | uuid h => simp only [decode, h]

end Primitive

section

variable [CustomCodecs]

theorem Primitive.toJson_of_decode {kind : Primitive} {field other : String} {raw : Json}
    {value : Value} (h : kind.decode field raw = .ok value) (hcanonical : kind.isCanonical raw) :
    value.toJson other = .ok raw := by
  cases Primitive.decode_eq_ok_iff.1 h with
  | any | null | string | bool => rfl
  | int hi | integer hi => simp [Value.toJson, Json.ofInt64_of_asInt64? hi]
  | float hint hx =>
      obtain ⟨finite, rfl⟩ := Json.eq_float_of_asInt64?_eq_none hint hx hcanonical
      simp [Value.toJson, Json.ofFloat, finite]
  | datetime hread | uuid hread =>
      simp only [Primitive.isCanonical, hread, Option.all_some, beq_iff_eq] at hcanonical
      simp [Value.toJson, hcanonical]

theorem FieldType.decode_primitive_eq_ok_iff {kind : Primitive} {field : String} {raw : Json}
    {value : Drawn Value} : (FieldType.primitive kind).decode field raw = .ok value ↔
      ∃ found, kind.decode field raw = .ok found ∧ value = fun _ => found := by
  rw [FieldType.decode, bind_eq_ok_iff]
  simp only [pure_eq_ok, Except.ok.injEq, eq_comm]

theorem FieldType.decode_nested_eq_ok_iff {schema : Schema} {field : String} {raw : Json}
    {value : Drawn Value} : (FieldType.nested schema).decode field raw = .ok value ↔
      (raw = .null ∧ value = fun _ => .null) ∨
      ∃ members record, raw = .object members ∧ schema.loadRecord members = .ok record ∧
        value = fun moment => .object (record moment) := by
  cases raw <;>
    simp [FieldType.decode, bind_eq_ok_iff, pure_eq_ok, eq_comm (b := value)]

theorem FieldType.decode_listOf_eq_ok_iff {item : FieldType} {field : String} {raw : Json}
    {value : Drawn Value} : (FieldType.listOf item).decode field raw = .ok value ↔
      (raw = .null ∧ value = fun _ => .null) ∨
      ∃ raws values, raw = .array raws ∧
        raws.mapM (fun raw => item.decode field raw) = .ok values ∧
        value = fun moment => .list (Drawn.all values moment) := by
  cases raw <;>
    simp [FieldType.decode, bind_eq_ok_iff, pure_eq_ok, eq_comm (b := value)]

theorem FieldType.trim_null (type : FieldType) (moment : Moment) :
    type.trim .null moment = .null := by
  cases type <;> rfl

theorem itemsToJson_of_mapM_decode {item : FieldType} {field other : String}
    {written : Json → Drawn Json} {raws : List Json} {values : List (Drawn Value)}
    (h : raws.mapM (fun raw => item.decode field raw) = .ok values)
    (hitem : ∀ raw ∈ raws, ∀ value, item.decode field raw = .ok value →
      ∀ moment, (value moment).toJson other = .ok (written raw moment)) (moment : Moment) :
    itemsToJson other (Drawn.all values moment) = .ok (Drawn.all (raws.map written) moment) := by
  induction raws generalizing values moment with
  | nil =>
      obtain rfl := Except.ok.inj h
      rfl
  | cons raw raws ih =>
      obtain ⟨value, rest, hvalue, hrest, rfl⟩ := mapM_cons_eq_ok_iff.1 h
      have hhead := hitem raw List.mem_cons_self value hvalue moment.first
      have htail := ih hrest (fun raw hmem => hitem raw (List.mem_cons_of_mem _ hmem)) moment.later
      simp [itemsToJson, Drawn.all, hhead, htail]

/-! ## Fields -/

/-- All that loading a field can come to. -/
theorem FieldSpec.loadSlot_cases {field : FieldSpec} {members : Json.Members} {slot : Drawn Slot}
    (h : field.loadSlot members = .ok slot) :
    (Assoc.get? field.name members = none ∧
      ((∃ default, field.default? = some default ∧
          slot = fun moment => .defaulted (default.produce moment)) ∨
        (field.isRequired = false ∧ slot = fun _ => .absent))) ∨
    (Assoc.get? field.name members = some .null ∧ field.isRequired = false ∧
      slot = fun _ => .held .null) ∨
    ∃ raw value, Assoc.get? field.name members = some raw ∧ raw ≠ .null ∧
      slot = (fun moment => .held (value moment)) ∧
      ((∃ codec found, field.codec? = some codec ∧ codec.decode field.name raw = .ok found ∧
          value = fun _ => found) ∨
        (field.codec? = none ∧ field.type.decode field.name raw = .ok value)) := by
  obtain ⟨name, type, isRequired, default?, omitsDefault, codec?⟩ := field
  simp only [FieldSpec.loadSlot] at h
  split at h
  · rename_i hget
    split at h
    · simp at h
    · rename_i hoptional
      exact .inr (.inl ⟨hget, Bool.of_not_eq_true hoptional, (Except.ok.inj h).symm⟩)
  · rename_i raw hnull hget
    refine .inr (.inr ⟨raw, ?_⟩)
    cases codec? with
    | some codec =>
        obtain ⟨found, hfound, hslot⟩ := bind_eq_ok_iff.1 h
        exact ⟨fun _ => found, hget, hnull, (Except.ok.inj hslot).symm,
          .inl ⟨codec, found, rfl, hfound, rfl⟩⟩
    | none =>
        obtain ⟨value, hvalue, hslot⟩ := bind_eq_ok_iff.1 h
        exact ⟨value, hget, hnull, (Except.ok.inj hslot).symm, .inr ⟨rfl, hvalue⟩⟩
  · rename_i hget
    refine .inl ⟨hget, ?_⟩
    cases default? with
    | some default => exact .inl ⟨default, rfl, (Except.ok.inj h).symm⟩
    | none =>
        cases isRequired with
        | true => simp at h
        | false => exact .inr ⟨rfl, (Except.ok.inj h).symm⟩

/-- What is written for a field of an object that was loaded. -/
def FieldSpec.kept (field : FieldSpec) (members : Json.Members) : Drawn (Option Json) :=
  fun moment => (Assoc.get? field.name members).bind fun raw => field.trim members raw moment

theorem FieldSpec.encodeWith_none {field : FieldSpec} {value : Value} {other : String}
    (h : field.codec? = none) :
    field.encodeWith value (value.toJson other) = value.toJson other := by
  cases value <;> simp [FieldSpec.encodeWith, h, Value.toJson]

theorem FieldSpec.encodeWith_some {field : FieldSpec} {value : Value} {codec : Codec}
    {plain : Except Error Json} (h : field.codec? = some codec) (hvalue : value ≠ .null) :
    field.encodeWith value plain = codec.encode field.name value := by
  cases value <;> simp [FieldSpec.encodeWith, h] at hvalue ⊢

/-- A member that was read is written as it was, or without what its records leave out; it is
left out itself if its value is a default that the field omits. -/
theorem FieldSpec.dump_held {field : FieldSpec} {members : Json.Members} {raw : Json}
    {value : Drawn Value} (hget : Assoc.get? field.name members = some raw)
    (hload : field.loadSlot members = .ok fun moment => .held (value moment)) {moment : Moment}
    (hencode : field.encodeWith (value moment) ((value moment).toJson field.name) =
      .ok (if field.codec?.isSome then raw else field.type.trim raw moment)) :
    Slot.dump field (.held (value moment)) = .ok (field.kept members moment) := by
  obtain ⟨name, type, isRequired, default?, omitsDefault, codec?⟩ := field
  simp only [Slot.dump, FieldSpec.kept, hget, Option.bind_some, FieldSpec.trim, FieldSpec.omits,
    hload, hencode]
  split
  · rfl
  · cases codec? <;> rfl

/-- What was loaded for a field is written as it was, if what its codec or its type has read is. -/
theorem FieldSpec.dump_of_loadSlot {field : FieldSpec} {members : Json.Members}
    {slot : Drawn Slot} (h : field.loadSlot members = .ok slot)
    (hcodec : ∀ raw codec found, Assoc.get? field.name members = some raw → raw ≠ .null →
      field.codec? = some codec → codec.decode field.name raw = .ok found →
      found ≠ .null ∧ codec.encode field.name found = .ok raw) (moment : Moment)
    (hplain : ∀ raw value, Assoc.get? field.name members = some raw → field.codec? = none →
      field.type.decode field.name raw = .ok value →
      (value moment).toJson field.name = .ok (field.type.trim raw moment)) :
    (slot moment).dump field = .ok (field.kept members moment) := by
  rcases FieldSpec.loadSlot_cases h with ⟨hget, hslot⟩ | ⟨hget, _, rfl⟩ |
    ⟨raw, value, hget, hraw, rfl, hread⟩
  · have hkept : field.kept members moment = none := by simp [FieldSpec.kept, hget]
    -- A default that was filled in is marked as such, and not written.
    rcases hslot with ⟨default, _, rfl⟩ | ⟨hoptional, rfl⟩
    · simp [Slot.dump, hkept]
    · simp [Slot.dump, hkept, hoptional]
  · refine @FieldSpec.dump_held _ field members .null (fun _ => .null) hget h moment ?_
    simp [FieldSpec.encodeWith, FieldType.trim_null]
  · refine FieldSpec.dump_held hget h ?_
    rcases hread with ⟨codec, found, hsome, hfound, rfl⟩ | ⟨hnone, hvalue⟩
    · obtain ⟨hnull, hback⟩ := hcodec raw codec found hget hraw hsome hfound
      rw [FieldSpec.encodeWith_some hsome hnull, hback, hsome]
      rfl
    · rw [FieldSpec.encodeWith_none hnone, hplain raw value hget hnone hvalue, hnone]
      rfl

/-! ## Records -/

def writeFields : List FieldSpec → Json.Members → Json.Members → Drawn Json.Members
  | [], _, written, _ => written
  | field :: fields, members, written, moment =>
    writeFields fields members
      (match field.kept members moment.first with
      | some json => Assoc.insert field.name json written
      | none => written) moment.later

theorem dumpSlots_of_loadSlots {fields : List FieldSpec} {members : Json.Members}
    {slots : List (Drawn Slot)} (h : loadSlots fields members = .ok slots)
    (hfield : ∀ field ∈ fields, ∀ slot, field.loadSlot members = .ok slot →
      ∀ moment, (slot moment).dump field = .ok (field.kept members moment))
    (written : Json.Members) (moment : Moment) :
    dumpSlots fields (Drawn.all slots moment) written =
      .ok (writeFields fields members written moment) := by
  induction fields generalizing slots written moment with
  | nil =>
      obtain rfl := Except.ok.inj h
      rfl
  | cons field fields ih =>
      obtain ⟨slot, hslot, h⟩ := bind_eq_ok_iff.1 h
      obtain ⟨rest, hrest, h⟩ := bind_eq_ok_iff.1 h
      obtain rfl := Except.ok.inj h
      have hhead := hfield field List.mem_cons_self slot hslot moment.first
      have htail := ih hrest fun field hmem => hfield field (List.mem_cons_of_mem _ hmem)
      simp only [Drawn.all, dumpSlots, hhead, ok_bind, writeFields]
      cases field.kept members moment.first <;> exact htail _ _

section

variable {fields : List FieldSpec} {members written : Json.Members} {moment : Moment}

theorem sorted_writeFields (h : Assoc.Sorted written) :
    Assoc.Sorted (writeFields fields members written moment) := by
  induction fields generalizing written moment with
  | nil => exact h
  | cons field fields ih =>
      apply ih
      split
      · exact Assoc.sorted_insert h
      · exact h

theorem get?_writeFields_of_not_mem {key : String} (h : key ∉ fields.map FieldSpec.name) :
    Assoc.get? key (writeFields fields members written moment) = Assoc.get? key written := by
  induction fields generalizing written moment with
  | nil => rfl
  | cons field fields ih =>
      simp only [List.map_cons, List.mem_cons, not_or] at h
      rw [writeFields, ih h.2]
      split
      · exact Assoc.get?_insert_of_ne (fun heq => h.1 heq.symm) _ _
      · rfl

theorem trimMember_of_not_mem {key : String} {raw : Json} (h : key ∉ fields.map FieldSpec.name) :
    trimMember fields members key raw moment = some raw := by
  induction fields generalizing moment with
  | nil => rfl
  | cons field fields ih =>
      simp only [List.map_cons, List.mem_cons, not_or] at h
      have hne : field.name ≠ key := fun heq => h.1 heq.symm
      simp [trimMember, hne, ih h.2]

/-- What is written for a field is what stays of its member, both as of one moment. -/
theorem exists_moment_of_mem (members : Json.Members) {field : FieldSpec}
    (hnodup : (fields.map FieldSpec.name).Nodup) (hmem : field ∈ fields) (moment : Moment) :
    ∃ within,
      (∀ raw, trimMember fields members field.name raw moment = field.trim members raw within) ∧
      ∀ written, Assoc.get? field.name (writeFields fields members written moment) =
        (field.kept members within).or (Assoc.get? field.name written) := by
  induction fields generalizing moment with
  | nil => simp at hmem
  | cons head fields ih =>
      obtain ⟨hhead, hrest⟩ := List.nodup_cons.1 hnodup
      rcases List.mem_cons.1 hmem with rfl | hmem
      · refine ⟨moment.first, fun raw => by simp [trimMember], fun written => ?_⟩
        rw [writeFields, get?_writeFields_of_not_mem hhead]
        cases field.kept members moment.first with
        | some json => simp [Assoc.get?_insert_self]
        | none => simp
      · have hne : head.name ≠ field.name := fun heq =>
          hhead (heq ▸ List.mem_map_of_mem hmem)
        obtain ⟨within, htrim, hget⟩ := ih hrest hmem moment.later
        refine ⟨within, fun raw => by simp [trimMember, hne, htrim], fun written => ?_⟩
        rw [writeFields, hget]
        congr 1
        split
        · exact Assoc.get?_insert_of_ne hne _ _
        · rfl

end

end

namespace Schema

theorem isSome_position?_iff {schema : Schema} {key : String} :
    (schema.position? key).isSome ↔ key ∈ schema.fields.map FieldSpec.name := by
  simp [position?, List.findIdx?_isSome]

theorem position?_eq_none_iff {schema : Schema} {key : String} :
    schema.position? key = none ↔ key ∉ schema.fields.map FieldSpec.name := by
  rw [← isSome_position?_iff, Option.not_isSome_iff_eq_none]

def undeclared (schema : Schema) (members : Json.Members) : Json.Members :=
  Assoc.filterMap (fun key raw =>
    if schema.isIdentity key || (schema.position? key).isSome then none else some raw) members

theorem loadExtras_eq {schema : Schema} {members : Json.Members}
    {extras : List (String × Value)} (h : schema.loadExtras members = .ok extras) :
    extras = (schema.undeclared members).map fun (key, raw) => (key, .json raw) := by
  induction members generalizing extras with
  | nil =>
      obtain rfl := Except.ok.inj h
      rfl
  | cons head members ih =>
      obtain ⟨key, raw⟩ := head
      simp only [loadExtras] at h
      split at h
      · rename_i hskip
        rw [undeclared, Assoc.filterMap_cons_none (if_pos hskip)]
        exact ih h
      · rename_i hkeep
        split at h
        · obtain ⟨rest, hrest, h⟩ := bind_eq_ok_iff.1 h
          obtain rfl := Except.ok.inj h
          rw [undeclared, Assoc.filterMap_cons_some (if_neg hkeep), ih hrest]
          rfl
        · simp at h

theorem loadExtras_keys {schema : Schema} {members : Json.Members}
    {extras : List (String × Value)} (h : schema.loadExtras members = .ok extras) :
    ∀ key ∈ extras.map Prod.fst, schema.isIdentity key = false ∧
      key ∉ schema.fields.map FieldSpec.name ∧ schema.isOpen = true := by
  induction members generalizing extras with
  | nil =>
      obtain rfl := Except.ok.inj h
      simp
  | cons head members ih =>
      obtain ⟨key, raw⟩ := head
      simp only [loadExtras] at h
      split at h
      · exact ih h
      · rename_i hkeep
        split at h
        · rename_i hopen
          obtain ⟨rest, hrest, h⟩ := bind_eq_ok_iff.1 h
          obtain rfl := Except.ok.inj h
          simp only [Bool.or_eq_true, isSome_position?_iff, not_or, Bool.not_eq_true] at hkeep
          intro other hother
          rcases List.mem_cons.1 hother with rfl | hother
          · exact ⟨hkeep.1, hkeep.2, hopen⟩
          · exact ih hrest other hother
        · simp at h

theorem sorted_undeclared {schema : Schema} {members : Json.Members}
    (h : Assoc.Sorted members) : Assoc.Sorted (schema.undeclared members) :=
  Assoc.sorted_filterMap h

theorem get?_undeclared {schema : Schema} {members : Json.Members}
    (h : Assoc.Sorted members) (key : String) :
    Assoc.get? key (schema.undeclared members) =
      if schema.isIdentity key || (schema.position? key).isSome then none
      else Assoc.get? key members := by
  rw [undeclared, Assoc.get?_filterMap h]
  split <;> cases Assoc.get? key members <;> rfl

variable [CustomCodecs]

theorem trim_eq (schema : Schema) (members : Json.Members) (moment : Moment) :
    schema.trim members moment = Assoc.filterMap
      (fun key raw => trimMember schema.fields members key raw moment) members := by
  cases schema
  rfl

theorem dumpExtras_json {members written : Json.Members} :
    dumpExtras (members.map fun (key, raw) => (key, .json raw)) written =
      .ok (Assoc.insertAll members written) := by
  induction members generalizing written with
  | nil => rfl
  | cons head members ih => exact ih

theorem loadRecord_cases {schema : Schema} {members : Json.Members} {record : Drawn Record}
    (h : schema.loadRecord members = .ok record) :
    ∃ slots extras, loadSlots schema.fields members = .ok slots ∧
      schema.loadExtras members = .ok extras ∧
      record = fun moment => ⟨schema, Drawn.all slots moment, extras⟩ := by
  obtain ⟨name, kind, fields, isOpen, keyFields⟩ := schema
  obtain ⟨slots, hslots, h⟩ := bind_eq_ok_iff.1 h
  obtain ⟨extras, hextras, h⟩ := bind_eq_ok_iff.1 h
  exact ⟨slots, extras, hslots, hextras, (Except.ok.inj h).symm⟩

theorem schema_of_loadRecord {schema : Schema} {members : Json.Members} {record : Drawn Record}
    (h : schema.loadRecord members = .ok record) (moment : Moment) :
    (record moment).schema = schema := by
  obtain ⟨slots, extras, _, _, rfl⟩ := loadRecord_cases h
  rfl

/-- A record that was loaded is written over attributes that are none of its fields. -/
theorem dumpRecord_of_loadRecord {schema : Schema} {members written : Json.Members}
    {record : Drawn Record} (h : schema.loadRecord members = .ok record)
    (hnodup : (schema.fields.map FieldSpec.name).Nodup)
    (hfield : ∀ field ∈ schema.fields, ∀ slot, field.loadSlot members = .ok slot →
      ∀ moment, (slot moment).dump field = .ok (field.kept members moment))
    (hreserved : ∀ key, schema.isIdentity key → key ∉ schema.fields.map FieldSpec.name)
    (hmembers : Assoc.Sorted members) (hsorted : Assoc.Sorted written)
    (hwritten : ∀ key, Assoc.get? key written =
      if schema.isIdentity key then Assoc.get? key members else none) (moment : Moment) :
    schema.dumpRecord (record moment) written = .ok (schema.trim members moment) := by
  obtain ⟨slots, extras, hslots, hextras, rfl⟩ := loadRecord_cases h
  have hslotsDump := dumpSlots_of_loadSlots hslots hfield written moment
  obtain rfl := loadExtras_eq hextras
  simp only [dumpRecord, hslotsDump, ok_bind, dumpExtras_json, Except.ok.injEq]
  rw [trim_eq]
  refine Assoc.eq_of_get?_eq (Assoc.sorted_insertAll (sorted_writeFields hsorted))
    (Assoc.sorted_filterMap hmembers) fun key => ?_
  rw [Assoc.get?_insertAll (Assoc.nodup_keys (sorted_undeclared hmembers)),
    get?_undeclared hmembers, Assoc.get?_filterMap hmembers]
  by_cases hdeclared : key ∈ schema.fields.map FieldSpec.name
  · obtain ⟨field, hmem, rfl⟩ := List.mem_map.1 hdeclared
    have hidentity : ¬ schema.isIdentity field.name := fun h => hreserved _ h hdeclared
    have hposition := isSome_position?_iff.2 hdeclared
    obtain ⟨within, htrim, hget⟩ := exists_moment_of_mem members hnodup hmem moment
    rw [hget, hwritten]
    simp [hposition, hidentity, FieldSpec.kept, htrim]
  · have hposition : ¬ (schema.position? key).isSome := mt isSome_position?_iff.1 hdeclared
    have hstay : (fun raw => trimMember schema.fields members key raw moment) = some :=
      funext fun raw => trimMember_of_not_mem hdeclared
    rw [get?_writeFields_of_not_mem hdeclared, hwritten, hstay]
    by_cases hidentity : schema.isIdentity key <;> simp [hidentity, hposition]

end Schema

variable [CustomCodecs]

theorem Record.dump_eq (record : Record) :
    record.dump = record.schema.dumpRecord record [] := by
  cases record
  rfl

theorem Record.dump_of_loadRecord {schema : Schema} {members : Json.Members}
    {record : Drawn Record} (h : schema.loadRecord members = .ok record)
    (hkind : schema.kind = .embedded) (hnodup : (schema.fields.map FieldSpec.name).Nodup)
    (hmembers : Assoc.Sorted members)
    (hfield : ∀ field ∈ schema.fields, ∀ slot, field.loadSlot members = .ok slot →
      ∀ moment, (slot moment).dump field = .ok (field.kept members moment)) (moment : Moment) :
    (record moment).dump = .ok (schema.trim members moment) := by
  have hidentity : ∀ key, ¬ schema.isIdentity key := fun key => by
    simp [Schema.isIdentity, hkind]
  rw [Record.dump_eq, Schema.schema_of_loadRecord h]
  exact Schema.dumpRecord_of_loadRecord h hnodup hfield
    (fun key hkey => absurd hkey (hidentity key)) hmembers Assoc.sorted_nil
    (fun key => by simp [hidentity key, Assoc.get?]) moment

mutual

theorem FieldType.toJson_of_decode : ∀ (type : FieldType) {field other : String} {raw : Json}
    {value : Drawn Value}, type.decode field raw = .ok value → type.nestsParts →
    (∀ number, type.Declares (.custom number) → (CustomCodecs.codec number).WritesBack) →
    type.isCanonical raw → raw.isOrdered →
    ∀ moment, (value moment).toJson other = .ok (type.trim raw moment)
  | .primitive kind, _, _, _, _, h, _, _, hcanonical, _, _ => by
      obtain ⟨found, hfound, rfl⟩ := FieldType.decode_primitive_eq_ok_iff.1 h
      exact Primitive.toJson_of_decode hfound hcanonical
  | .nested ⟨name, kind, fields, isOpen, keyFields⟩, _, _, raw, _, h, hparts, hcodecs, hcanonical,
    hordered, moment => by
      obtain ⟨rfl, rfl⟩ | ⟨members, record, rfl, hrecord, rfl⟩ :=
        FieldType.decode_nested_eq_ok_iff.1 h
      · rfl
      · simp only [FieldType.nestsParts, Bool.and_eq_true, beq_iff_eq, decide_eq_true_eq] at hparts
        obtain ⟨⟨hkind, hnodup⟩, hparts⟩ := hparts
        obtain ⟨hsorted, hmembers⟩ := Json.isOrdered_object.1 hordered
        have hfields := fields_dump_loaded fields hparts hcodecs hcanonical hmembers
        have hdump := Record.dump_of_loadRecord hrecord hkind hnodup hsorted hfields moment
        simp [Value.toJson, hdump, FieldType.trim]
  | .listOf item, field, other, raw, _, h, hparts, hcodecs, hcanonical, hordered, moment => by
      obtain ⟨rfl, rfl⟩ | ⟨raws, values, rfl, hvalues, rfl⟩ :=
        FieldType.decode_listOf_eq_ok_iff.1 h
      · rfl
      · have hitem : ∀ raw ∈ raws, ∀ value, item.decode field raw = .ok value →
            ∀ moment, (value moment).toJson other = .ok (item.trim raw moment) :=
          fun raw hmem value hvalue => FieldType.toJson_of_decode item hvalue hparts hcodecs
            (List.all_eq_true.1 hcanonical raw hmem) (Json.isOrdered_of_mem hordered raw hmem)
        have hitems := itemsToJson_of_mapM_decode hvalues hitem moment
        simp [Value.toJson, hitems, FieldType.trim]
termination_by structural type => type

theorem FieldSpec.dump_loaded : ∀ (field : FieldSpec) {members : Json.Members},
    field.nestsParts →
    (∀ number, field.Declares (.custom number) → (CustomCodecs.codec number).WritesBack) →
    field.isCanonical members → Json.membersOrdered members →
    ∀ slot, field.loadSlot members = .ok slot →
      ∀ moment, (slot moment).dump field = .ok (field.kept members moment)
  | ⟨name, type, isRequired, default?, omitsDefault, codec?⟩, members, hparts, hcodecs, hcanonical,
    hordered, _, h, moment => by
      refine FieldSpec.dump_of_loadSlot h (fun raw codec found _ hraw hcodec hfound => ?_) moment
        fun raw value hget hnone hvalue => ?_
      · exact Codec.writesBack_of_custom (fun number hnumber =>
          hcodecs number (.inl (hnumber ▸ hcodec))) _ raw found hraw hfound
      · have hraw : type.isCanonical raw := by
          simp only at hget hnone
          simpa [FieldSpec.isCanonical, hget, hnone] using hcanonical
        exact FieldType.toJson_of_decode type hvalue hparts
          (fun number hdeclares => hcodecs number (.inr hdeclares)) hraw
          (Json.isOrdered_of_get? hordered hget) moment
termination_by structural field => field

theorem fields_dump_loaded : ∀ (fields : List FieldSpec) {members : Json.Members},
    fieldsNestParts fields →
    (∀ number, fieldsDeclare (.custom number) fields →
      (CustomCodecs.codec number).WritesBack) →
    fieldsCanonical fields members → Json.membersOrdered members →
    ∀ field ∈ fields, ∀ slot, field.loadSlot members = .ok slot →
      ∀ moment, (slot moment).dump field = .ok (field.kept members moment)
  | [], _, _, _, _, _, _, hmem => by simp at hmem
  | head :: fields, _, hparts, hcodecs, hcanonical, hordered, field, hmem => by
      obtain ⟨hheadParts, hrestParts⟩ := Bool.and_eq_true_iff.1 hparts
      obtain ⟨hheadCanonical, hrestCanonical⟩ := Bool.and_eq_true_iff.1 hcanonical
      rcases List.mem_cons.1 hmem with heq | hmem
      · rw [heq]
        exact FieldSpec.dump_loaded head hheadParts
          (fun number hdeclares => hcodecs number (.inl hdeclares)) hheadCanonical hordered
      · exact fields_dump_loaded fields hrestParts
          (fun number hdeclares => hcodecs number (.inr hdeclares)) hrestCanonical hordered field
          hmem
termination_by structural fields => fields

end

end DocGraph
