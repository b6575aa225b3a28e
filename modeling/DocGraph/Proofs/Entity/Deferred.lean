import DocGraph.Proofs.Entity.Writable
import DocGraph.Proofs.Record.OrderedMap
/-!
# Values that are taken and cannot be written

A value that is put into a field is checked by the type of the field, and a type does not tell
whether a value can be written.  What cannot be is found when the entity is written, and not before.
-/

namespace DocGraph

open Outcome

/-- A value that cannot be written once it is held under a name. -/
def Schema.CannotWrite [CustomCodecs] (schema : Schema) (name : String) (value : Value) : Prop :=
  match schema.field? name with
  | some field => (Slot.held (field.type.widen value)).Unwritable Codec.Rejects field
  | none => value.Unwritable Codec.Rejects

namespace Record

/-! ## The new value among the old ones -/

theorem zip_set {α β : Type} {left : List α} {right : List β} {position : Nat} {a : α} (b : β)
    (h : left[position]? = some a) :
    left.zip (right.set position b) = (left.zip right).set position (a, b) := by
  induction left generalizing right position with
  | nil => rfl
  | cons head left ih =>
      cases right with
      | nil => rfl
      | cons other right =>
          cases position with
          | zero =>
              obtain rfl := Option.some.inj h
              rfl
          | succ position => exact congrArg ((head, other) :: ·) (ih h)

/-- Where nothing had a property, something has it after a change exactly when the new item has. -/
theorem exists_mem_set_iff {α : Type} {items : List α} {property : α → Prop} {position : Nat}
    {item : α} (hlt : position < items.length) (h : ¬ ∃ item ∈ items, property item) :
    (∃ other ∈ items.set position item, property other) ↔ property item := by
  constructor
  · rintro ⟨other, hmem, hother⟩
    rcases List.mem_or_eq_of_mem_set hmem with hmem | rfl
    · exact absurd ⟨other, hmem, hother⟩ h
    · exact hother
  · exact fun hitem => ⟨item, List.mem_set hlt item, hitem⟩

theorem exists_mem_putExtra_iff {extras : List (String × Value)} {property : Value → Prop}
    {name : String} {value : Value} (h : ¬ ∃ extra ∈ extras, property extra.2) :
    (∃ extra ∈ putExtra name value extras, property extra.2) ↔ property value := by
  induction extras with
  | nil => simp [putExtra]
  | cons extra extras ih =>
      obtain ⟨key, old⟩ := extra
      simp only [List.mem_cons, exists_eq_or_imp, not_or] at h
      unfold putExtra
      split
      · simp only [List.mem_cons, exists_eq_or_imp, or_iff_left h.2]
      · simp only [List.mem_cons, exists_eq_or_imp, or_iff_right h.1, ih h.2]

variable [CustomCodecs]

/-- A record that could be written can be written after a value was put into it, exactly when this
value can be. -/
theorem unwritable_set_iff {record after : Record} {name : String} {value : Value}
    (h : record.IsShaped) (hwritable : ¬ record.Unwritable Codec.Rejects)
    (hset : record.set name value = .ok after) :
    after.Unwritable Codec.Rejects ↔ record.schema.CannotWrite name value := by
  rw [unwritable_iff, not_or] at hwritable
  obtain ⟨hslots, hextras⟩ := hwritable
  obtain ⟨position, field, hposition, hfield, hfound, rfl⟩ | ⟨_, hfound, _, rfl⟩ :=
    h.set_cases_widen hset
  · have hlt : position < (record.schema.fields.zip record.slots).length := by
      rw [List.length_zip, h.length_slots, Nat.min_self, ← h.length_slots]
      exact h.lt_length hposition
    rw [unwritable_iff, or_iff_left hextras, zip_set _ hfield, exists_mem_set_iff hlt hslots,
      Schema.CannotWrite, hfound]
  · rw [unwritable_iff, or_iff_right hslots, exists_mem_putExtra_iff hextras, Schema.CannotWrite,
      hfound]

end Record

namespace Entity

theorem cases_of_set {entity after : Entity} {name : String} {value : Value}
    (h : Edit.perform (.set name value) entity = (.ok (), after)) :
    ∃ record, entity.record.set name value = .ok record ∧ after = { entity with record }.touch := by
  rw [Edit.perform_set] at h
  split at h
  · rename_i record _ hrecord
    exact ⟨record, hrecord, (Prod.mk.inj h).2.symm⟩
  · simp at h
  · simp at h

theorem state_touch_eq_deleted_iff (entity : Entity) :
    entity.touch.state = .deleted ↔ entity.state = .deleted := by
  unfold touch
  split <;> simp_all

theorem ends_touch (entity : Entity) :
    entity.touch.source = entity.source ∧ entity.touch.target = entity.target := by
  unfold touch
  split <;> exact ⟨rfl, rfl⟩

section

variable [CustomCodecs]

/-- An entity that could be written can no longer be, once a value was put into a field, exactly
when this value cannot be written there. -/
theorem dump_fails_after_set_iff {declaration schema : Schema}
    (hbuilt : declaration.build = .ok schema) {first : Record} (hfirst : first.Begun schema)
    (changes : List Record.Change) {entity : Entity}
    (hrecord : entity.record = first.afterAll changes)
    (hdump : (schema.dump entity).isOk = true) {name : String} {value : Value} {after : Entity}
    (hset : Edit.perform (.set name value) entity = (.ok (), after)) :
    (schema.dump after).isOk = false ↔ schema.CannotWrite name value := by
  have hshaped : entity.record.IsShaped := hrecord ▸ (hfirst.isShaped hbuilt).afterAll changes
  have hschema : entity.schema = schema := by
    rw [Entity.schema, hrecord, Record.schema_afterAll, hfirst.schema_eq]
  subst hschema
  obtain ⟨record, hrecordSet, rfl⟩ := cases_of_set hset
  have hsame : entity.schema = ({ entity with record }.touch).schema := by
    rw [Entity.schema, Entity.schema, record_touch, Record.schema_of_set hrecordSet]
  -- Neither the state nor the ends were in the way before, and they are as they were.
  have hwritten := Schema.isOk_dump_eq_false_iff entity
  rw [hdump, iff_false_left (by simp), not_or, not_or] at hwritten
  obtain ⟨hlive, hends, hwritable⟩ := hwritten
  obtain ⟨hsource, htarget⟩ := ends_touch { entity with record }
  rw [hsame, Schema.isOk_dump_eq_false_iff, state_touch_eq_deleted_iff, or_iff_right hlive,
    hsource, htarget, ← hsame, or_iff_right hends, record_touch]
  exact Record.unwritable_set_iff hshaped hwritable hrecordSet

end

section

attribute [local instance] CustomCodecs.none

def numberedSchema : Schema :=
  ⟨"numbered", .embedded, [⟨"n", .primitive .int, true, none, false, none⟩], false, []⟩

def reportSchema : Schema :=
  ⟨"reports", .document, [⟨"score", .primitive .float, false, none, false, none⟩,
    ⟨"parts", .listOf (.nested numberedSchema), false, none, false, none⟩,
    ⟨"at", .primitive .int, false, none, false, some .epochMillis⟩], true, []⟩

def report : Entity :=
  (Mutation.set "remark" (.string "none")).apply (Entity.new reportSchema .declared)

def emptyParts : Value := .list [.null, .object (Record.new numberedSchema .declared)]

theorem dump_fails_after_set_iff_report :
    (reportSchema.dump report).isOk = true ∧
      (Edit.perform (.set "parts" emptyParts) report).1 = .ok () ∧
      reportSchema.CannotWrite "parts" emptyParts ∧
      (reportSchema.dump (Edit.perform (.set "parts" emptyParts) report).2).isOk = false ∧
      reportSchema.CannotWrite "at" (.int 5) := by
  have hdump : (reportSchema.dump report).isOk = true := by decide +kernel
  have hset : (Edit.perform (.set "parts" emptyParts) report).1 = .ok () := by rfl
  have hcannot : reportSchema.CannotWrite "parts" emptyParts :=
    .held rfl rfl (.list (List.mem_cons_of_mem _ List.mem_cons_self)
      (.object (.slot (List.mem_singleton.2 rfl) (.missing rfl))))
  have hbuilt : reportSchema.build = .ok reportSchema := by rfl
  have hrecord : report.record =
      (Record.new reportSchema .declared).afterAll [.set "remark" (.string "none")] := by rfl
  have hrejects : Codec.epochMillis.Rejects "at" (.int 5) :=
    Codec.rejects_epochMillis_iff.2 ⟨by simp, by simp⟩
  exact ⟨hdump, hset, hcannot, (dump_fails_after_set_iff hbuilt (.new _) _ hrecord hdump
    (Prod.ext hset rfl)).2 hcannot, .rejected rfl rfl hrejects⟩

/-- Floats that are not finite, records without a required field, and values that the codec of their
field does not write are all taken without an error. -/
theorem unwritable_values_are_taken :
    reportSchema.build.isOk = true ∧ numberedSchema.build.isOk = true ∧
      (reportSchema.dump report).isOk = true ∧
      ∀ change ∈ [("score", .float ⟨0x7ff8000000000000⟩), ("parts", emptyParts), ("at", .int 5),
          ("remark", .list [.float ⟨0x7ff0000000000000⟩])],
        (Edit.perform (.set change.1 change.2) report).1.isOk = true ∧
          (reportSchema.dump (Edit.perform (.set change.1 change.2) report).2).isOk = false := by
  decide +kernel

end

end Entity

end DocGraph
