import DocGraph.Proofs.Record.Made
import DocGraph.Proofs.Schema.Written
import DocGraph.Proofs.Text.Uuid
import DocGraph.Proofs.Time.Rfc3339
/-!
# Records are read back

What is written for a record can be loaded again, and what was loaded is written in the same way,
up to the defaults that are omitted.  There are four kinds of exceptions: instants whose text has a
year that no reader takes, records of another schema with the name of the one that is nested, values
that a codec does not read back, such as leap seconds at the end of time where milliseconds are
counted, and values of a factory that their field does not take.
-/

namespace DocGraph

open Outcome

/-! ## Values that can be read -/

/-- Whether the milliseconds of an instant are those of an instant: a leap second is counted as the
first second after it. -/
def Instant.HasMillis (instant : Instant) : Prop :=
  instant.nanos < 1000000000 ∨ instant.seconds < Instant.maxSeconds

instance (instant : Instant) : Decidable instant.HasMillis :=
  inferInstanceAs (Decidable (_ ∨ _))

/-- Whether a codec reads what it writes for a value, and writes what it reads in the same way.  It
may write null only where the field does without a value. -/
def FieldCodec.ReadsBack (codec : FieldCodec) (field : String) (isRequired : Bool)
    (value : Value) : Prop :=
  ∀ json, codec.encode field value = .ok json →
    if json = .null then isRequired = false
    else ∃ read, codec.decode field json = .ok read ∧ read ≠ .null ∧
      codec.encode field read = .ok json

section

variable [CustomCodecs]

mutual

/-- Whether a type reads what is written for a value that fits it. -/
def FieldType.CanRead : FieldType → Value → Prop
  | .primitive .datetime, .datetime instant => instant.HasPlainYear
  | .nested schema, .object record => record.schema = schema ∧ schema.CanRead record
  | .listOf item, .list items => ∀ value ∈ items, item.CanRead value
  | _, _ => True
termination_by structural type => type

/-- Whether a field reads what is written for a slot; what is left out need not be read. -/
def FieldSpec.CanRead : FieldSpec → Slot → Prop
  | ⟨name, type, isRequired, default?, omitsDefault, codec?⟩, .held value =>
    (omitsDefault &&
      FieldSpec.isDefault ⟨name, type, isRequired, default?, omitsDefault, codec?⟩ value) = false →
    match codec? with
    | some codec =>
      (value = .null → isRequired = false) ∧
      (value ≠ .null → codec.meaning.ReadsBack name isRequired value)
    | none =>
      (FieldSpec.Draws ⟨name, type, isRequired, default?, omitsDefault, codec?⟩ value →
        FieldSpec.Takes ⟨name, type, isRequired, default?, omitsDefault, codec?⟩ value) ∧
      type.CanRead value
  | _, _ => True
termination_by structural field => field

def fieldsCanRead : List FieldSpec → List Slot → Prop
  | field :: fields, slot :: slots => field.CanRead slot ∧ fieldsCanRead fields slots
  | _, _ => True
termination_by structural fields => fields

def Schema.CanRead : Schema → Record → Prop
  | ⟨_, _, fields, _, _⟩, record => fieldsCanRead fields record.slots
termination_by structural schema => schema

end

/-- Whether a type reads a value, and what it reads is written as the text was. -/
def FieldType.ComesBack (type : FieldType) (json : Json) : Prop :=
  ∀ field, ∃ read, type.decode field json = .ok read ∧
    ∀ other moment, (read moment).toJson other = .ok (type.trim json moment)

def FieldSpec.ComesBack (field : FieldSpec) (members : Json.Members) : Prop :=
  ∃ slot, field.loadSlot members = .ok slot ∧
    ∀ moment, (slot moment).dump field = .ok (field.kept members moment)

end

/-! ## Scalars -/

theorem Json.asInt64?_ofInt64 (i : Int64) : (Json.ofInt64 i).asInt64? = some i := by
  simpa [Json.ofInt64, Json.asInt64?] using Int64.toInt_lt i

theorem Primitive.decode_ofInt64 {kind : Primitive} (hkind : kind = .int ∨ kind = .float)
    (field : String) (i : Int64) : kind.decode field (Json.ofInt64 i) = .ok (.int i) := by
  have hint := Json.asInt64?_ofInt64 i
  rw [Json.ofInt64] at hint ⊢
  rcases hkind with rfl | rfl <;> simp only [Primitive.decode, hint]

theorem Json.ofFloat_eq_ok {field : String} {x : Binary64} {json : Json}
    (h : Json.ofFloat field x = .ok json) : ∃ finite, json = .number (.float x finite) := by
  unfold Json.ofFloat at h
  split at h
  · rename_i finite
    exact ⟨finite, (Except.ok.inj h).symm⟩
  · simp at h

section

variable [CustomCodecs]

theorem Primitive.decode_of_toJson {kind : Primitive} {value : Value} {other : String} {json : Json}
    (hfits : (FieldType.primitive kind).Fits value)
    (hread : (FieldType.primitive kind).CanRead value) (h : value.toJson other = .ok json)
    (field : String) :
    (∃ read, kind.decode field json = .ok read) ∧ kind.isCanonical json = true := by
  cases kind with
  | any => exact ⟨⟨.json json, rfl⟩, rfl⟩
  | string =>
      cases value with
      | null | string _ =>
          obtain rfl := Except.ok.inj h
          exact ⟨⟨_, rfl⟩, rfl⟩
      | _ => exact False.elim hfits
  | bool =>
      cases value with
      | null | bool _ =>
          obtain rfl := Except.ok.inj h
          exact ⟨⟨_, rfl⟩, rfl⟩
      | _ => exact False.elim hfits
  | int =>
      cases value with
      | null =>
          obtain rfl := Except.ok.inj h
          exact ⟨⟨_, rfl⟩, rfl⟩
      | int i =>
          obtain rfl := Except.ok.inj h
          exact ⟨⟨.int i, Primitive.decode_ofInt64 (.inl rfl) field i⟩, rfl⟩
      | _ => exact False.elim hfits
  | float =>
      cases value with
      | null =>
          obtain rfl := Except.ok.inj h
          exact ⟨⟨_, rfl⟩, rfl⟩
      | int i =>
          obtain rfl := Except.ok.inj h
          refine ⟨⟨.int i, Primitive.decode_ofInt64 (.inr rfl) field i⟩, ?_⟩
          exact decide_eq_true (Int64.toInt_lt i)
      | float x =>
          obtain ⟨finite, rfl⟩ := Json.ofFloat_eq_ok h
          exact ⟨⟨.float x, rfl⟩, rfl⟩
      | _ => exact False.elim hfits
  | datetime =>
      cases value with
      | null =>
          obtain rfl := Except.ok.inj h
          exact ⟨⟨_, rfl⟩, rfl⟩
      | datetime instant =>
          obtain rfl := Except.ok.inj h
          have hback := Instant.ofRfc3339?_rfc3339 hread
          simp [Primitive.decode, Primitive.isCanonical, hback]
      | _ => exact False.elim hfits
  | uuid =>
      cases value with
      | null =>
          obtain rfl := Except.ok.inj h
          exact ⟨⟨_, rfl⟩, rfl⟩
      | uuid id =>
          obtain rfl := Except.ok.inj h
          simp [Primitive.decode, Primitive.isCanonical, Uuid.ofText?_text]
      | _ => exact False.elim hfits

theorem FieldType.comesBack_primitive {kind : Primitive} {value : Value} {other : String}
    {json : Json} (hfits : (FieldType.primitive kind).Fits value)
    (hread : (FieldType.primitive kind).CanRead value) (h : value.toJson other = .ok json) :
    (FieldType.primitive kind).ComesBack json := by
  intro field
  obtain ⟨⟨read, hdecode⟩, hcanonical⟩ := Primitive.decode_of_toJson hfits hread h field
  refine ⟨fun _ => read, FieldType.decode_primitive_eq_ok_iff.2 ⟨read, hdecode, rfl⟩,
    fun other _ => ?_⟩
  simpa [FieldType.trim] using Primitive.toJson_of_decode hdecode hcanonical

end

/-! ## Codecs -/

theorem Instant.isSome_ofMillis?_millis (instant : Instant) :
    (Instant.ofMillis? instant.millis).isSome = true ↔ instant.HasMillis := by
  have hrange := instant.inRange
  have hnanos := instant.nanosInRange
  have hmax : Instant.maxSeconds = 8210266876799 := by decide
  have hmin : Instant.minSeconds = -8334601228800 := by decide
  unfold Instant.HasMillis Instant.ofMillis? Instant.ofUnix? Instant.millis
  constructor
  · intro h
    split at h
    · omega
    · simp at h
  · intro h
    rw [dif_pos (by omega), dif_pos (by omega)]
    rfl

theorem Instant.toInt_ofInt_millis (instant : Instant) :
    (Int64.ofInt instant.millis).toInt = instant.millis := by
  have hrange := instant.inRange
  have hnanos := instant.nanosInRange
  have hmax : Instant.maxSeconds = 8210266876799 := by decide
  have hmin : Instant.minSeconds = -8334601228800 := by decide
  unfold Instant.millis
  apply Int64.toInt_ofInt_of_le <;> omega

theorem FieldCodec.decode_epochMillis_eq_ok_iff {field : String} {instant : Instant}
    {value : Value} :
    epochMillis.decode field (.ofInt64 (Int64.ofInt instant.millis)) = .ok value ↔
      ∃ read, Instant.ofMillis? instant.millis = some read ∧ .datetime read = value := by
  have hmillis : (Json.ofInt64 (Int64.ofInt instant.millis)).asInt64?.bind
      (fun millis => Instant.ofMillis? millis.toInt) = Instant.ofMillis? instant.millis := by
    rw [Json.asInt64?_ofInt64, Option.bind_some, instant.toInt_ofInt_millis]
  simp only [epochMillis, hmillis]
  cases Instant.ofMillis? instant.millis with
  | none => simp
  | some read => simp

/-- Milliseconds are read back as an instant that has them, if there is one. -/
theorem FieldCodec.readsBack_epochMillis_iff {field : String} {isRequired : Bool}
    {instant : Instant} :
    epochMillis.ReadsBack field isRequired (.datetime instant) ↔ instant.HasMillis := by
  have hnull : Json.ofInt64 (Int64.ofInt instant.millis) ≠ .null := by simp [Json.ofInt64]
  rw [← instant.isSome_ofMillis?_millis]
  constructor
  · intro h
    have hread := h _ rfl
    rw [if_neg hnull] at hread
    obtain ⟨_, hread, _⟩ := hread
    obtain ⟨read, hread, _⟩ := decode_epochMillis_eq_ok_iff.1 hread
    rw [hread]
    rfl
  · intro h json hjson
    obtain ⟨read, hread⟩ := Option.isSome_iff_exists.1 h
    obtain rfl := Except.ok.inj hjson
    rw [if_neg hnull]
    refine ⟨.datetime read, decode_epochMillis_eq_ok_iff.2 ⟨read, hread, rfl⟩, by simp, ?_⟩
    simp only [epochMillis, Instant.millis_of_ofMillis? hread]

/-! ## Fields -/

theorem FieldSpec.isSome_default_of_isDefault {field : FieldSpec} {value : Value}
    (h : field.isDefault value = true) : field.default?.isSome = true := by
  unfold FieldSpec.isDefault at h
  split at h
  · rename_i hdefault
    rw [hdefault]
    rfl
  · simp at h

section

variable [CustomCodecs]

theorem FieldSpec.canRead_held {field : FieldSpec} {value : Value} :
    field.CanRead (.held value) ↔ ((field.omitsDefault && field.isDefault value) = false →
      match field.codec? with
      | some codec => (value = .null → field.isRequired = false) ∧
        (value ≠ .null → codec.meaning.ReadsBack field.name field.isRequired value)
      | none => (field.Draws value → field.Takes value) ∧ field.type.CanRead value) := by
  cases field
  rfl

/-- What is written for a slot: nothing where a reader takes the default or does without, or the
value that it holds. -/
theorem Slot.dump_cases {field : FieldSpec} {slot : Slot} {json? : Option Json}
    (h : slot.dump field = .ok json?) (hholds : field.Holds slot) :
    (json? = none ∧ (field.default?.isSome = true ∨ field.isRequired = false)) ∨
    ∃ value json, json? = some json ∧ slot = .held value ∧
      (field.omitsDefault && field.isDefault value) = false ∧
      field.encodeWith value (value.toJson field.name) = .ok json := by
  cases slot with
  | absent =>
      simp only [Slot.dump] at h
      split at h
      · simp at h
      · rename_i hoptional
        exact .inl ⟨(Except.ok.inj h).symm, .inr (Bool.of_not_eq_true hoptional)⟩
  | defaulted value => exact .inl ⟨(Except.ok.inj h).symm, .inl hholds.1⟩
  | held value =>
      simp only [Slot.dump] at h
      split at h
      · rename_i homitted
        obtain ⟨_, hdefault⟩ := Bool.and_eq_true_iff.1 homitted
        exact .inl ⟨(Except.ok.inj h).symm, .inl (FieldSpec.isSome_default_of_isDefault hdefault)⟩
      · rename_i hkept
        obtain ⟨json, hjson, h⟩ := bind_eq_ok_iff.1 h
        exact .inr ⟨value, json, (Except.ok.inj h).symm, rfl, Bool.of_not_eq_true hkept, hjson⟩

theorem FieldSpec.loadSlot_of_none {field : FieldSpec} {members : Json.Members}
    (hget : Assoc.get? field.name members = none)
    (h : field.default?.isSome = true ∨ field.isRequired = false) :
    ∃ slot, field.loadSlot members = .ok slot := by
  obtain ⟨name, type, isRequired, default?, omitsDefault, codec?⟩ := field
  simp only at hget h
  simp only [FieldSpec.loadSlot, hget]
  cases default? with
  | some default => exact ⟨_, rfl⟩
  | none =>
      rcases h with hdefault | hoptional
      · simp at hdefault
      · rw [hoptional]
        exact ⟨_, rfl⟩

theorem FieldSpec.loadSlot_of_null {field : FieldSpec} {members : Json.Members}
    (hget : Assoc.get? field.name members = some .null) (h : field.isRequired = false) :
    field.loadSlot members = .ok fun _ => .held .null := by
  cases field
  simp only at hget h
  simp [FieldSpec.loadSlot, hget, h]

theorem FieldSpec.loadSlot_of_codec {field : FieldSpec} {members : Json.Members} {raw : Json}
    (hget : Assoc.get? field.name members = some raw) (hraw : raw ≠ .null) {codec : Codec}
    (hcodec : field.codec? = some codec) {value : Value}
    (hvalue : codec.decode field.name raw = .ok value) :
    field.loadSlot members = .ok fun _ => .held value := by
  cases field
  simp only at hget hcodec hvalue
  cases raw <;> simp_all [FieldSpec.loadSlot]

theorem FieldSpec.loadSlot_of_type {field : FieldSpec} {members : Json.Members} {raw : Json}
    (hget : Assoc.get? field.name members = some raw) (hraw : raw ≠ .null)
    (hcodec : field.codec? = none) {value : Drawn Value}
    (hvalue : field.type.decode field.name raw = .ok value) :
    field.loadSlot members = .ok fun moment => .held (value moment) := by
  cases field
  simp only at hget hcodec hvalue
  cases raw <;> simp_all [FieldSpec.loadSlot]

theorem Value.isNull_of_toJson_null {value : Value} {field : String}
    (h : value.toJson field = .ok .null) : value.isNull = true := by
  cases value with
  | null => rfl
  | json raw =>
      obtain rfl := Except.ok.inj h
      rfl
  | float x =>
      obtain ⟨finite, hnumber⟩ := Json.ofFloat_eq_ok h
      simp at hnumber
  | list items =>
      obtain ⟨_, _, h⟩ := bind_eq_ok_iff.1 h
      simp at h
  | object record =>
      obtain ⟨_, _, h⟩ := bind_eq_ok_iff.1 h
      simp at h
  | _ => simp [Value.toJson, Json.ofInt64] at h

/-- What a codec has written for a value comes back, if it reads it back. -/
theorem FieldSpec.comesBack_of_codec {field : FieldSpec} {codec : Codec}
    (hcodec : field.codec? = some codec) {value : Value} {json : Json} {members : Json.Members}
    (hget : Assoc.get? field.name members = some json)
    (hencode : field.encodeWith value (value.toJson field.name) = .ok json)
    (hnull : value = .null → field.isRequired = false)
    (hback : value ≠ .null → codec.meaning.ReadsBack field.name field.isRequired value) :
    field.ComesBack members := by
  -- Null is read and written without the codec, whether or not the codec has written it.
  have hwithout (hjson : json = .null) (hoptional : field.isRequired = false) :
      field.ComesBack members := by
    have hslot := FieldSpec.loadSlot_of_null (hjson ▸ hget) hoptional
    refine ⟨_, hslot, fun moment => FieldSpec.dump_of_loadSlot hslot
      (fun raw _ _ hraw hne => ?_) moment fun raw _ _ hnone => ?_⟩
    · exact absurd (Option.some.inj (hraw.symm.trans hget)) (hjson ▸ hne)
    · simp [hcodec] at hnone
  by_cases hvalue : value = .null
  · subst hvalue
    exact hwithout (Except.ok.inj hencode).symm (hnull rfl)
  · rw [FieldSpec.encodeWith_some hcodec hvalue] at hencode
    have hread := hback hvalue json hencode
    split at hread
    · exact hwithout ‹_› hread
    · rename_i hjson
      obtain ⟨read, hdecode, hne, hagain⟩ := hread
      have hslot := FieldSpec.loadSlot_of_codec hget hjson hcodec hdecode
      refine ⟨_, hslot, fun moment => FieldSpec.dump_of_loadSlot hslot
        (fun raw other found hraw _ hother hfound => ?_) moment fun raw _ hraw hnone => ?_⟩
      · obtain rfl := Option.some.inj (hget.symm.trans hraw)
        obtain rfl := Option.some.inj (hcodec.symm.trans hother)
        obtain rfl := Except.ok.inj (hdecode.symm.trans hfound)
        exact ⟨hne, hagain⟩
      · simp [hcodec] at hnone

/-- What was written for a value that a field without a codec takes comes back, if its type reads
it back. -/
theorem FieldSpec.comesBack_of_type {field : FieldSpec} (hcodec : field.codec? = none)
    {value : Value} {json : Json} {members : Json.Members}
    (hget : Assoc.get? field.name members = some json)
    (hencode : value.toJson field.name = .ok json) (htakes : field.Takes value)
    (hback : field.type.ComesBack json) : field.ComesBack members := by
  obtain ⟨read, hdecode, hagain⟩ := hback field.name
  obtain ⟨slot, hslot⟩ : ∃ slot, field.loadSlot members = .ok slot := by
    by_cases hnull : json = .null
    · subst hnull
      have hoptional : field.isRequired = false := Bool.of_not_eq_true fun hrequired => by
        simpa [Value.isNull_of_toJson_null hencode] using htakes.1 hrequired
      exact ⟨_, FieldSpec.loadSlot_of_null hget hoptional⟩
    · exact ⟨_, FieldSpec.loadSlot_of_type hget hnull hcodec hdecode⟩
  refine ⟨slot, hslot, fun moment => FieldSpec.dump_of_loadSlot hslot
    (fun raw codec _ _ _ hsome => ?_) moment fun raw other hraw _ hother => ?_⟩
  · simp [hcodec] at hsome
  · obtain rfl := Option.some.inj (hget.symm.trans hraw)
    obtain rfl := Except.ok.inj (hdecode.symm.trans hother)
    exact hagain field.name moment

theorem FieldSpec.comesBack_of_dump {field : FieldSpec} {slot : Slot} {members : Json.Members}
    (hholds : field.Holds slot) (hread : field.CanRead slot)
    (hdump : slot.dump field = .ok (Assoc.get? field.name members))
    (hplain : ∀ value json, value.Made → field.type.Fits value → field.type.CanRead value →
      value.toJson field.name = .ok json → field.type.ComesBack json) :
    field.ComesBack members := by
  rcases Slot.dump_cases hdump hholds with ⟨hget, hdefault⟩ |
    ⟨value, json, hget, rfl, hkept, hencode⟩
  · obtain ⟨slot, hslot⟩ := FieldSpec.loadSlot_of_none hget hdefault
    exact ⟨slot, hslot, fun moment => FieldSpec.dump_of_loadSlot hslot
      (fun raw _ _ hraw => by simp [hget] at hraw) moment fun raw _ hraw => by simp [hget] at hraw⟩
  · obtain ⟨hmade, hheld⟩ := hholds
    have hcan := FieldSpec.canRead_held.1 hread hkept
    cases hcodec : field.codec? with
    | none =>
        rw [hcodec] at hcan
        rw [FieldSpec.encodeWith_none hcodec] at hencode
        have htakes : field.Takes value := by
          rcases hheld with htakes | ⟨codec, _, hsome, _⟩ | hdrawn
          · exact htakes
          · simp [hcodec] at hsome
          · exact hcan.1 hdrawn
        exact FieldSpec.comesBack_of_type hcodec hget hencode htakes
          (hplain value json hmade htakes.2 hcan.2 hencode)
    | some codec =>
        rw [hcodec] at hcan
        exact FieldSpec.comesBack_of_codec hcodec hget hencode hcan.1 hcan.2

/-! ## Records -/

theorem exists_loadSlots {fields : List FieldSpec} {members : Json.Members}
    (h : ∀ field ∈ fields, field.ComesBack members) :
    ∃ slots, loadSlots fields members = .ok slots := by
  induction fields with
  | nil => exact ⟨[], rfl⟩
  | cons field fields ih =>
      obtain ⟨⟨slot, hslot, _⟩, hrest⟩ := List.forall_mem_cons.1 h
      obtain ⟨slots, hslots⟩ := ih hrest
      exact ⟨slot :: slots, by simp [loadSlots, hslot, hslots]⟩

namespace Schema

omit [CustomCodecs] in
theorem exists_loadExtras {schema : Schema} {members : Json.Members}
    (h : ∀ key ∈ members.map Prod.fst, schema.isIdentity key = true ∨
      key ∈ schema.fields.map FieldSpec.name ∨ schema.isOpen = true) :
    ∃ extras, schema.loadExtras members = .ok extras := by
  induction members with
  | nil => exact ⟨[], rfl⟩
  | cons head members ih =>
      obtain ⟨hkey, hrest⟩ := List.forall_mem_cons.1 h
      obtain ⟨extras, hextras⟩ := ih hrest
      simp only [loadExtras, hextras]
      split
      · exact ⟨extras, rfl⟩
      · rename_i hkeep
        simp only [Bool.or_eq_true, isSome_position?_iff, not_or] at hkeep
        have hopen := (hkey.resolve_left hkeep.1).resolve_left hkeep.2
        simp [hopen]

theorem exists_loadRecord {schema : Schema} {members : Json.Members}
    (hfields : ∀ field ∈ schema.fields, field.ComesBack members)
    (hkeys : ∀ key ∈ members.map Prod.fst, schema.isIdentity key = true ∨
      key ∈ schema.fields.map FieldSpec.name ∨ schema.isOpen = true) :
    ∃ record, schema.loadRecord members = .ok record := by
  obtain ⟨extras, hextras⟩ := exists_loadExtras hkeys
  cases schema
  obtain ⟨slots, hslots⟩ := exists_loadSlots hfields
  exact ⟨_, by simp only [loadRecord, hslots, hextras, ok_bind]; rfl⟩

theorem Made.not_declared {schema : Schema} (h : schema.Made) {key : String}
    (hkey : schema.isIdentity key = true) : key ∉ schema.fields.map FieldSpec.name := by
  intro hdeclared
  have hplain := not_reserved_of_build h.built hdeclared
  simp [isIdentity, hplain] at hkey

end Schema

namespace Record

variable {record : Record} {members written : Json.Members}

theorem Keeps.dump_slots (hkeeps : record.Keeps)
    (h : record.schema.dumpRecord record members = .ok written)
    (hmembers : ∀ key ∈ members.map Prod.fst, record.schema.isIdentity key = true) :
    List.Forall₂ (fun field slot => slot.dump field = .ok (Assoc.get? field.name written))
      record.schema.fields record.slots := by
  refine Schema.dump_of_dumpRecord h hkeeps.slots.length_eq
    (Schema.nodup_of_build hkeeps.made.built) (fun key hkey => (hkeeps.extras key hkey).2.1) ?_
  intro key hkey
  exact Assoc.get?_eq_none_of_not_mem fun hmem => hkeeps.made.not_declared (hmembers key hmem) hkey

theorem Keeps.get?_of_isIdentity (hkeeps : record.Keeps)
    (h : record.schema.dumpRecord record members = .ok written) {key : String}
    (hkey : record.schema.isIdentity key = true) :
    Assoc.get? key written = Assoc.get? key members := by
  refine Schema.get?_of_dumpRecord h (hkeeps.made.not_declared hkey) fun hextra => ?_
  simp [(hkeeps.extras key hextra).1] at hkey

/-- What is written for a record is read by its schema, if it is by each of its fields, and is
written once more without what the schema omits. -/
theorem Keeps.exists_loadRecord (hkeeps : record.Keeps)
    (h : record.schema.dumpRecord record members = .ok written)
    (hsorted : Assoc.Sorted members)
    (hmembers : ∀ key ∈ members.map Prod.fst, record.schema.isIdentity key = true)
    (hfields : ∀ field ∈ record.schema.fields, field.ComesBack written) :
    ∃ read, record.schema.loadRecord written = .ok read ∧
      ∀ moment, record.schema.dumpRecord (read moment) members =
        .ok (record.schema.trim written moment) := by
  have hkeys : ∀ key ∈ written.map Prod.fst, record.schema.isIdentity key = true ∨
      key ∈ record.schema.fields.map FieldSpec.name ∨ record.schema.isOpen = true := by
    intro key hkey
    rcases Schema.mem_keys_of_dumpRecord h hkey with (hdeclared | hextra) | hmember
    · exact .inr (.inl hdeclared)
    · exact .inr (.inr (hkeeps.extras key hextra).2.2)
    · exact .inl (hmembers key hmember)
  have hbase : ∀ key, Assoc.get? key members =
      if record.schema.isIdentity key then Assoc.get? key written else none := by
    intro key
    split
    · rename_i hkey
      exact (hkeeps.get?_of_isIdentity h hkey).symm
    · rename_i hkey
      exact Assoc.get?_eq_none_of_not_mem fun hmem => hkey (hmembers key hmem)
  obtain ⟨read, hread⟩ := Schema.exists_loadRecord hfields hkeys
  refine ⟨read, hread, Schema.dumpRecord_of_loadRecord hread
    (Schema.nodup_of_build hkeeps.made.built) (fun field hmem slot hslot => ?_)
    (fun key hkey => hkeeps.made.not_declared hkey)
    (Schema.sorted_of_dumpRecord h hsorted) hsorted hbase⟩
  obtain ⟨other, hother, hback⟩ := hfields field hmem
  obtain rfl := Except.ok.inj (hother.symm.trans hslot)
  exact hback

end Record

/-! ## Values -/

theorem itemsToJson_eq_mapM (field : String) (values : List Value) :
    itemsToJson field values = values.mapM fun value => value.toJson field := by
  induction values with
  | nil => rfl
  | cons value values ih => rw [itemsToJson, List.mapM_cons, ih]

theorem FieldType.comesBack_null (type : FieldType) : type.ComesBack .null := by
  intro field
  cases type with
  | primitive kind =>
      cases kind
      all_goals exact ⟨fun _ => _, rfl, fun _ _ => rfl⟩
  | nested schema => exact ⟨fun _ => .null, rfl, fun _ _ => rfl⟩
  | listOf item => exact ⟨fun _ => .null, rfl, fun _ _ => rfl⟩

/-- A list comes back if its items do. -/
theorem FieldType.comesBack_array {item : FieldType} {jsons : List Json}
    (h : ∀ json ∈ jsons, item.ComesBack json) :
    (FieldType.listOf item).ComesBack (.array jsons) := by
  intro field
  obtain ⟨values, hvalues⟩ := exists_mapM_eq_ok fun json hmem => by
    obtain ⟨value, hvalue, _⟩ := h json hmem field
    exact ⟨value, hvalue⟩
  refine ⟨fun moment => .list (Drawn.all values moment), by simp [FieldType.decode, hvalues],
    fun other moment => ?_⟩
  have hitems : itemsToJson other (Drawn.all values moment) =
      .ok (Drawn.all (jsons.map fun json => item.trim json) moment) := by
    refine itemsToJson_of_mapM_decode hvalues (fun json hmem value hvalue => ?_) moment
    obtain ⟨read, hread, hback⟩ := h json hmem field
    obtain rfl := Except.ok.inj (hread.symm.trans hvalue)
    exact hback other
  simp [Value.toJson, hitems, FieldType.trim]

mutual

/-- What is written for a value that fits a type is read by the type, if nothing in it is an
exception. -/
theorem FieldType.comesBack_of_toJson : ∀ (type : FieldType) {value : Value} {other : String}
    {json : Json}, type.Made → value.Made → type.Fits value → type.CanRead value →
    value.toJson other = .ok json → type.ComesBack json
  | .primitive _, _, _, _, _, _, hfits, hread, h => FieldType.comesBack_primitive hfits hread h
  | .nested ⟨name, kind, fields, isOpen, keyFields⟩, value, _, _, htype, hmade, hfits, hread,
    h => by
      cases value with
      | null =>
          obtain rfl := Except.ok.inj h
          exact FieldType.comesBack_null _
      | object record =>
          obtain ⟨hschema, hread⟩ := hread
          obtain ⟨members, hdump, h⟩ := bind_eq_ok_iff.1 h
          obtain rfl := Except.ok.inj h
          have hkeeps := hmade.record.keeps
          rw [Record.dump_eq] at hdump
          have hslots := hkeeps.dump_slots hdump (by simp)
          have htypes := hkeeps.made.types
          have hholds := hkeeps.slots
          rw [hschema] at hslots htypes hholds
          have hfields := fields_comeBack fields htypes hholds hread hslots
          obtain ⟨read, hload, hback⟩ := hkeeps.exists_loadRecord hdump Assoc.sorted_nil (by simp)
            (hschema ▸ hfields)
          rw [hschema] at hload hback
          intro field
          refine ⟨fun moment => .object (read moment), by simp [FieldType.decode, hload],
            fun other moment => ?_⟩
          have hagain := hback moment
          rw [← Schema.schema_of_loadRecord hload moment, ← Record.dump_eq,
            Schema.schema_of_loadRecord hload moment] at hagain
          simp [Value.toJson, hagain, FieldType.trim]
      | _ => exact False.elim hfits
  | .listOf item, value, _, _, htype, hmade, hfits, hread, h => by
      cases value with
      | null =>
          obtain rfl := Except.ok.inj h
          exact FieldType.comesBack_null _
      | list values =>
          obtain ⟨jsons, hjsons, h⟩ := bind_eq_ok_iff.1 h
          obtain rfl := Except.ok.inj h
          rw [itemsToJson_eq_mapM] at hjsons
          refine FieldType.comesBack_array fun json hmem => ?_
          obtain ⟨value, hvalue, hjson⟩ := exists_item_of_mapM hjsons json hmem
          exact FieldType.comesBack_of_toJson item htype.item (hmade.items value hvalue)
            (hfits value hvalue) (hread value hvalue) hjson
      | _ => exact False.elim hfits
termination_by structural type => type

theorem FieldSpec.comesBack : ∀ (field : FieldSpec) {slot : Slot} {members : Json.Members},
    field.type.Made → field.Holds slot → field.CanRead slot →
    slot.dump field = .ok (Assoc.get? field.name members) → field.ComesBack members
  | ⟨_, type, _, _, _, _⟩, _, _, htype, hholds, hread, hdump =>
      FieldSpec.comesBack_of_dump hholds hread hdump fun _ _ hmade hfits hcan h =>
        FieldType.comesBack_of_toJson type htype hmade hfits hcan h
termination_by structural field => field

theorem fields_comeBack : ∀ (fields : List FieldSpec) {slots : List Slot} {members : Json.Members},
    (∀ field ∈ fields, field.type.Made) → List.Forall₂ FieldSpec.Holds fields slots →
    fieldsCanRead fields slots →
    List.Forall₂ (fun field slot => slot.dump field = .ok (Assoc.get? field.name members))
      fields slots → ∀ field ∈ fields, field.ComesBack members
  | [], _, _, _, _, _, _ => by simp
  | head :: fields, _, _, htypes, .cons hholds hrest, hread, .cons hdump hdumps => by
      obtain ⟨htype, htypes⟩ := List.forall_mem_cons.1 htypes
      obtain ⟨hhead, hread⟩ := hread
      exact List.forall_mem_cons.2 ⟨FieldSpec.comesBack head htype hholds hhead hdump,
        fields_comeBack fields htypes hrest hread hdumps⟩
termination_by structural fields => fields

end

end

end DocGraph
