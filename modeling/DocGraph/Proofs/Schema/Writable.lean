import DocGraph.Proofs.Outcome
import DocGraph.Schema.Dump
/-!
# What cannot be written

There are few reasons for which a record is not written: a required field is absent, a codec does
not write the value of its field, or a float is not finite where no codec writes it.  The reason may
lie deep within the record, in its lists and in the records that it holds, but not in defaults that
are left out, nor in what a codec writes.
-/

namespace DocGraph

open Outcome

/-- What a codec does not write in a field; null is no matter of codecs. -/
def Codec.Rejects [CustomCodecs] (codec : Codec) (field : String) (value : Value) : Prop :=
  value ≠ .null ∧ (codec.encode field value).isOk = false

/-- The codec for instants writes instants, and nothing else. -/
theorem Codec.rejects_epochMillis_iff [CustomCodecs] {field : String} {value : Value} :
    epochMillis.Rejects field value ↔ value ≠ .null ∧ ∀ instant, value ≠ .datetime instant := by
  refine and_congr_right fun _ => ?_
  cases value <;> simp [encode, meaning, FieldCodec.epochMillis]

section

variable (rejects : Codec → String → Value → Prop)

mutual

/-- A value that cannot be written, where codecs reject some values. -/
inductive Value.Unwritable : Value → Prop
  | float {x : Binary64} (h : x.isFinite = false) : Value.Unwritable (.float x)
  | list {items : List Value} {item : Value} (hmem : item ∈ items) (h : Value.Unwritable item) :
    Value.Unwritable (.list items)
  | object {record : Record} (h : Record.Unwritable record) : Value.Unwritable (.object record)

inductive Record.Unwritable : Record → Prop
  | slot {record : Record} {field : FieldSpec} {slot : Slot}
    (hmem : (field, slot) ∈ record.schema.fields.zip record.slots)
    (h : Slot.Unwritable field slot) : Record.Unwritable record
  | extra {record : Record} {name : String} {value : Value}
    (hmem : (name, value) ∈ record.extras) (h : Value.Unwritable value) : Record.Unwritable record

/-- What a record holds for a field and cannot write.  Defaults that stand in for missing fields,
and those that are omitted, are not written at all; and what a field with a codec holds is a matter
of its codec alone. -/
inductive Slot.Unwritable : FieldSpec → Slot → Prop
  | missing {field : FieldSpec} (hrequired : field.isRequired = true) :
    Slot.Unwritable field .absent
  | held {field : FieldSpec} {value : Value}
    (hkept : (field.omitsDefault && field.isDefault value) = false) (hcodec : field.codec? = none)
    (h : Value.Unwritable value) : Slot.Unwritable field (.held value)
  | rejected {field : FieldSpec} {codec : Codec} {value : Value}
    (hkept : (field.omitsDefault && field.isDefault value) = false)
    (hcodec : field.codec? = some codec) (h : rejects codec field.name value) :
    Slot.Unwritable field (.held value)

end

end

theorem Record.unwritable_iff {rejects : Codec → String → Value → Prop} {record : Record} :
    record.Unwritable rejects ↔
      (∃ pair ∈ record.schema.fields.zip record.slots, pair.2.Unwritable rejects pair.1) ∨
        ∃ extra ∈ record.extras, extra.2.Unwritable rejects := by
  constructor
  · rintro ⟨⟩
    · exact .inl ⟨_, ‹_›, ‹_›⟩
    · exact .inr ⟨_, ‹_›, ‹_›⟩
  · rintro (⟨_, hmem, h⟩ | ⟨_, hmem, h⟩)
    · exact .slot hmem h
    · exact .extra hmem h

section

variable [CustomCodecs]

/-- A value of a field is not written when its codec rejects it, or without a codec when it has no
plain form. -/
theorem FieldSpec.isOk_encodeWith_eq_false_iff {field : FieldSpec} {value : Value}
    {plain : Except Error Json}
    (hplain : plain.isOk = false ↔ value.Unwritable Codec.Rejects) :
    (field.encodeWith value plain).isOk = false ↔
      (field.codec? = none ∧ value.Unwritable Codec.Rejects) ∨
        ∃ codec, field.codec? = some codec ∧ codec.Rejects field.name value := by
  by_cases hnull : value = .null
  · subst hnull
    have hwritten : ¬ Value.Unwritable Codec.Rejects .null := nofun
    simp [encodeWith, hwritten, Codec.Rejects]
  · cases hcodec : field.codec? with
    | none =>
        have hencode : field.encodeWith value plain = plain := by
          cases value <;> simp_all [encodeWith]
        simp [hencode, hplain]
    | some codec =>
        have hencode : field.encodeWith value plain = codec.encode field.name value := by
          cases value <;> simp_all [encodeWith]
        simp [hencode, Codec.Rejects, hnull]

/-! ## Reasons why something is not written -/

-- What was written before a slot or a further field has no part in whether it can be written, so
-- that the members are arbitrary below.
mutual

theorem Value.isOk_toJson_eq_false_iff : ∀ (value : Value) (field : String),
    (value.toJson field).isOk = false ↔ value.Unwritable Codec.Rejects
  | .float x, field => by
      rw [Value.toJson, Json.ofFloat]
      split
      · rename_i hfinite
        refine iff_of_false (by simp) ?_
        rintro ⟨h⟩
        simp [hfinite] at h
      · rename_i hfinite
        exact iff_of_true (isOk_error _) (.float (Bool.eq_false_iff.2 hfinite))
  | .list items, field => by
      refine isOk_map_eq_false_iff.trans ((isOk_itemsToJson_eq_false_iff items field).trans ?_)
      constructor
      · rintro ⟨item, hmem, h⟩
        exact .list hmem h
      · rintro ⟨⟩
        exact ⟨_, ‹_›, ‹_›⟩
  | .object record, field => by
      refine isOk_map_eq_false_iff.trans ((Record.isOk_dump_eq_false_iff record).trans ?_)
      constructor
      · exact .object
      · rintro ⟨⟩
        assumption
  | .null, _ | .bool _, _ | .int _, _ | .string _, _ | .datetime _, _ | .uuid _, _ | .json _, _ =>
      iff_of_false (by simp [Value.toJson]) nofun
termination_by structural value => value

theorem isOk_itemsToJson_eq_false_iff : ∀ (items : List Value) (field : String),
    (itemsToJson field items).isOk = false ↔ ∃ item ∈ items, item.Unwritable Codec.Rejects
  | [], _ => by simp [itemsToJson]
  | item :: items, field => by
      refine (isOk_bind_eq_false_iff fun _ => isOk_map_eq_false_iff.trans
        (isOk_itemsToJson_eq_false_iff items field)).trans ?_
      rw [item.isOk_toJson_eq_false_iff field]
      simp only [List.mem_cons, exists_eq_or_imp]
termination_by structural items => items

theorem Record.isOk_dump_eq_false_iff : ∀ (record : Record),
    record.dump.isOk = false ↔ record.Unwritable Codec.Rejects
  | ⟨schema, slots, extras⟩ => by
      rw [Record.dump, isOk_bind_eq_false_iff (isOk_dumpExtras_eq_false_iff extras),
        isOk_dumpSlots_eq_false_iff slots schema.fields [], Record.unwritable_iff]
termination_by structural record => record

theorem Slot.isOk_dump_eq_false_iff : ∀ (slot : Slot) (field : FieldSpec),
    (slot.dump field).isOk = false ↔ slot.Unwritable Codec.Rejects field
  | .absent, field => by
      rw [Slot.dump]
      split
      · exact iff_of_true (isOk_error _) (.missing ‹_›)
      · refine iff_of_false (by simp) ?_
        rintro ⟨⟩
        contradiction
  | .defaulted _, field => iff_of_false (by simp [Slot.dump]) nofun
  | .held value, field => by
      rw [Slot.dump]
      by_cases homitted : (field.omitsDefault && field.isDefault value) = true
      · rw [if_pos homitted]
        refine iff_of_false (by simp) ?_
        rintro ⟨⟩ <;> simp_all
      · rw [if_neg homitted]
        refine isOk_map_eq_false_iff.trans ((FieldSpec.isOk_encodeWith_eq_false_iff
          (value.isOk_toJson_eq_false_iff field.name)).trans ?_)
        have hkept := Bool.eq_false_iff.2 homitted
        constructor
        · rintro (⟨hcodec, h⟩ | ⟨codec, hcodec, h⟩)
          · exact .held hkept hcodec h
          · exact .rejected hkept hcodec h
        · rintro ⟨⟩
          · exact .inl ⟨‹_›, ‹_›⟩
          · exact .inr ⟨_, ‹_›, ‹_›⟩
termination_by structural slot => slot

theorem isOk_dumpSlots_eq_false_iff : ∀ (slots : List Slot) (fields : List FieldSpec)
    (members : Json.Members), (dumpSlots fields slots members).isOk = false ↔
      ∃ pair ∈ fields.zip slots, pair.2.Unwritable Codec.Rejects pair.1
  | [], fields, members => by cases fields <;> simp [dumpSlots]
  | _ :: _, [], members => by simp [dumpSlots]
  | slot :: slots, field :: fields, members => by
      have hhead := slot.isOk_dump_eq_false_iff field
      simp only [dumpSlots, List.zip_cons_cons, List.mem_cons, exists_eq_or_imp]
      cases hdump : slot.dump field with
      | error error =>
          rw [hdump] at hhead
          exact iff_of_true rfl (.inl (hhead.1 rfl))
      | ok json? =>
          have hwritten : ¬ slot.Unwritable Codec.Rejects field := fun h => by
            simpa [hdump] using hhead.2 h
          rw [or_iff_right hwritten]
          cases json? <;> exact isOk_dumpSlots_eq_false_iff slots fields _
termination_by structural slots => slots

theorem isOk_dumpExtras_eq_false_iff : ∀ (extras : List (String × Value))
    (members : Json.Members), (dumpExtras extras members).isOk = false ↔
      ∃ extra ∈ extras, extra.2.Unwritable Codec.Rejects
  | [], members => by simp [dumpExtras]
  | (name, value) :: extras, members => by
      rw [dumpExtras, isOk_bind_eq_false_iff fun _ => isOk_dumpExtras_eq_false_iff extras _,
        value.isOk_toJson_eq_false_iff name]
      simp only [List.mem_cons, exists_eq_or_imp]
termination_by structural extras => extras

end

theorem Schema.isOk_dumpRecord_eq_false_iff {record : Record} {members : Json.Members} :
    (record.schema.dumpRecord record members).isOk = false ↔
      record.Unwritable Codec.Rejects := by
  rw [Schema.dumpRecord, isOk_bind_eq_false_iff (isOk_dumpExtras_eq_false_iff record.extras),
    isOk_dumpSlots_eq_false_iff record.slots record.schema.fields members, Record.unwritable_iff]

end

/-! ## Codecs within -/

mutual

def Schema.hasCodec : Schema → Bool
  | ⟨_, _, fields, _, _⟩ => fieldsHaveCodec fields
termination_by structural schema => schema

def FieldType.hasCodec : FieldType → Bool
  | .primitive _ => false
  | .nested schema => schema.hasCodec
  | .listOf item => item.hasCodec
termination_by structural type => type

def FieldSpec.hasCodec : FieldSpec → Bool
  | ⟨_, type, _, _, _, codec?⟩ => codec?.isSome || type.hasCodec
termination_by structural field => field

def fieldsHaveCodec : List FieldSpec → Bool
  | [] => false
  | field :: fields => field.hasCodec || fieldsHaveCodec fields
termination_by structural fields => fields

end

mutual

inductive Value.HoldsCodec : Value → Prop
  | list {items : List Value} {item : Value} (hmem : item ∈ items) (h : Value.HoldsCodec item) :
    Value.HoldsCodec (.list items)
  | object {record : Record} (h : Record.HoldsCodec record) : Value.HoldsCodec (.object record)

/-- A record whose schema declares a codec, or with such a record in it. -/
inductive Record.HoldsCodec : Record → Prop
  | declared {record : Record} {field : FieldSpec} {codec : Codec}
    (hmem : field ∈ record.schema.fields) (hcodec : field.codec? = some codec) :
    Record.HoldsCodec record
  | slot {record : Record} {value : Value} (hmem : .held value ∈ record.slots)
    (h : Value.HoldsCodec value) : Record.HoldsCodec record
  | extra {record : Record} {name : String} {value : Value}
    (hmem : (name, value) ∈ record.extras) (h : Value.HoldsCodec value) : Record.HoldsCodec record

end

section

variable {rejects : Codec → String → Value → Prop} (others : Codec → String → Value → Prop)

mutual

/-- Where there are no codecs, it does not matter what they reject. -/
theorem Value.Unwritable.change : ∀ {value : Value}, value.Unwritable rejects →
    value.Unwritable others ∨ value.HoldsCodec
  | _, .float h => .inl (.float h)
  | _, .list hmem h => h.change.imp (.list hmem) (.list hmem)
  | _, .object h => h.change.imp .object .object

theorem Record.Unwritable.change : ∀ {record : Record}, record.Unwritable rejects →
    record.Unwritable others ∨ record.HoldsCodec
  | _, .slot hmem (.missing hrequired) => .inl (.slot hmem (.missing hrequired))
  | _, .slot hmem (.held hkept hcodec h) =>
      h.change.imp (fun h => .slot hmem (.held hkept hcodec h))
        (.slot (List.of_mem_zip hmem).2)
  | _, .slot hmem (.rejected _ hcodec _) => .inr (.declared (List.of_mem_zip hmem).1 hcodec)
  | _, .extra hmem h => h.change.imp (.extra hmem) (.extra hmem)

end

end

end DocGraph
