import DocGraph.Proofs.Entity.ReadBack
import DocGraph.Proofs.Number.Integer
import DocGraph.Proofs.Record.OrderedMap
/-!
# Values that are left out

A field may leave its default out of what is written, as reading fills it in again.  The default is
told from other values by agreement, which is a little wider than equality: an integer agrees
with the float that it is rounded to, and a record with one of another schema of the same name.
What is read in their place is the default, and this is another value then.
-/

namespace DocGraph

open Outcome

/-! ## Equality -/

def Schema.SameName (s t : Schema) : Prop := s.name = t.name

mutual

/-- Whether two values are of one form and hold the same data item by item, where records are
compared only if their schemas are alike. -/
def Value.SameBy (alike : Schema → Schema → Prop) : Value → Value → Prop
  | .null, .null => True
  | .bool a, .bool b => a = b
  | .int a, .int b => a = b
  | .float a, .float b => a.agrees b = true
  | .string a, .string b => a = b
  | .datetime a, .datetime b => a = b
  | .uuid a, .uuid b => a = b
  | .list a, .list b => ItemsSameBy alike a b
  | .object a, .object b => a.SameBy alike b
  | .json a, .json b => a.agrees b = true
  | _, _ => False
termination_by structural a => a

def ItemsSameBy (alike : Schema → Schema → Prop) : List Value → List Value → Prop
  | [], [] => True
  | a :: as, b :: bs => a.SameBy alike b ∧ ItemsSameBy alike as bs
  | _, _ => False
termination_by structural a => a

def Record.SameBy (alike : Schema → Schema → Prop) : Record → Record → Prop
  | ⟨schema, slots, extras⟩, b =>
    alike schema b.schema ∧ SlotsSameBy alike slots b.slots ∧ ExtrasSameBy alike extras b.extras
termination_by structural a => a

def Slot.SameBy (alike : Schema → Schema → Prop) : Slot → Slot → Prop
  | .absent, .absent => True
  | .defaulted a, .defaulted b => a.SameBy alike b
  | .held a, .held b => a.SameBy alike b
  | _, _ => False
termination_by structural a => a

def SlotsSameBy (alike : Schema → Schema → Prop) : List Slot → List Slot → Prop
  | [], [] => True
  | a :: as, b :: bs => a.SameBy alike b ∧ SlotsSameBy alike as bs
  | _, _ => False
termination_by structural a => a

def ExtrasSameBy (alike : Schema → Schema → Prop) :
    List (String × Value) → List (String × Value) → Prop
  | [], [] => True
  | (k, a) :: as, (l, b) :: bs => (k = l ∧ a.SameBy alike b) ∧ ExtrasSameBy alike as bs
  | _, _ => False
termination_by structural a => a

end

/-- Whether a value equals another: an integer and a float as exact numbers, other values item by
item, where records of different schemas are never equal. -/
def Value.Equals : Value → Value → Prop
  | .float x, .int i | .int i, .float x => x.IsInteger i.toInt
  | a, b => a.SameBy Eq b

/-- Whether one of two values is an integer, and the other a float that it is rounded to. -/
def Value.Rounds : Value → Value → Prop
  | .float x, .int i | .int i, .float x => x.Rounds i.toInt
  | _, _ => False

/-- Whether two values would be equal if schemas of the same name were the same. -/
def Value.Resembles (a b : Value) : Prop :=
  a.SameBy Schema.SameName b ∧ ¬a.SameBy Eq b

/-! ## Agreement -/

mutual

theorem Value.agrees_iff : ∀ {a b : Value},
    a.agrees b = true ↔ a.SameBy Schema.SameName b
  | .list as, b => by
      cases b with
      | list bs => exact itemsAgree_iff
      | _ => simp [Value.agrees, Value.SameBy]
  | .object a, b => by
      cases b with
      | object b => exact Record.agrees_iff
      | _ => simp [Value.agrees, Value.SameBy]
  | .null, b => by cases b <;> simp [Value.agrees, Value.SameBy]
  | .bool _, b => by cases b <;> simp [Value.agrees, Value.SameBy]
  | .int _, b => by cases b <;> simp [Value.agrees, Value.SameBy]
  | .float _, b => by cases b <;> simp [Value.agrees, Value.SameBy]
  | .string _, b => by cases b <;> simp [Value.agrees, Value.SameBy]
  | .datetime _, b => by cases b <;> simp [Value.agrees, Value.SameBy]
  | .uuid _, b => by cases b <;> simp [Value.agrees, Value.SameBy]
  | .json _, b => by cases b <;> simp [Value.agrees, Value.SameBy]
termination_by structural a => a

theorem itemsAgree_iff : ∀ {as bs : List Value},
    itemsAgree as bs = true ↔ ItemsSameBy Schema.SameName as bs
  | [], bs => by cases bs <;> simp [itemsAgree, ItemsSameBy]
  | a :: as, bs => by
      cases bs with
      | nil => simp [itemsAgree, ItemsSameBy]
      | cons b bs =>
          rw [itemsAgree, ItemsSameBy, Bool.and_eq_true, Value.agrees_iff, itemsAgree_iff]
termination_by structural as => as

theorem Record.agrees_iff : ∀ {a b : Record},
    a.agrees b = true ↔ a.SameBy Schema.SameName b
  | ⟨schema, slots, extras⟩, b => by
      rw [Record.agrees, Record.SameBy, Bool.and_eq_true, Bool.and_eq_true, beq_iff_eq,
        slotsAgree_iff, extrasAgree_iff, and_assoc, Schema.SameName]
termination_by structural a => a

theorem Slot.agrees_iff : ∀ {a b : Slot},
    a.agrees b = true ↔ a.SameBy Schema.SameName b
  | .absent, b => by cases b <;> simp [Slot.agrees, Slot.SameBy]
  | .defaulted a, b => by
      cases b with
      | defaulted b => exact Value.agrees_iff
      | _ => simp [Slot.agrees, Slot.SameBy]
  | .held a, b => by
      cases b with
      | held b => exact Value.agrees_iff
      | _ => simp [Slot.agrees, Slot.SameBy]
termination_by structural a => a

theorem slotsAgree_iff : ∀ {as bs : List Slot},
    slotsAgree as bs = true ↔ SlotsSameBy Schema.SameName as bs
  | [], bs => by cases bs <;> simp [slotsAgree, SlotsSameBy]
  | a :: as, bs => by
      cases bs with
      | nil => simp [slotsAgree, SlotsSameBy]
      | cons b bs =>
          rw [slotsAgree, SlotsSameBy, Bool.and_eq_true, Slot.agrees_iff, slotsAgree_iff]
termination_by structural as => as

theorem extrasAgree_iff : ∀ {as bs : List (String × Value)},
    extrasAgree as bs = true ↔ ExtrasSameBy Schema.SameName as bs
  | [], bs => by cases bs <;> simp [extrasAgree, ExtrasSameBy]
  | (k, a) :: as, bs => by
      cases bs with
      | nil => simp [extrasAgree, ExtrasSameBy]
      | cons b bs =>
          rw [extrasAgree, ExtrasSameBy, Bool.and_eq_true, Bool.and_eq_true, beq_iff_eq,
            Value.agrees_iff, extrasAgree_iff]
termination_by structural as => as

end

/-! ## Records that are taken for the same -/

mutual

theorem Value.SameBy.sameName : ∀ {a b : Value}, a.SameBy Eq b → a.SameBy Schema.SameName b
  | .list as, b, h => by
      cases b with
      | list bs => exact ItemsSameBy.sameName h
      | _ => exact h
  | .object a, b, h => by
      cases b with
      | object b => exact Record.SameBy.sameName h
      | _ => exact h
  | .null, b, h => by cases b <;> exact h
  | .bool _, b, h => by cases b <;> exact h
  | .int _, b, h => by cases b <;> exact h
  | .float _, b, h => by cases b <;> exact h
  | .string _, b, h => by cases b <;> exact h
  | .datetime _, b, h => by cases b <;> exact h
  | .uuid _, b, h => by cases b <;> exact h
  | .json _, b, h => by cases b <;> exact h
termination_by structural a => a

theorem ItemsSameBy.sameName : ∀ {as bs : List Value},
    ItemsSameBy Eq as bs → ItemsSameBy Schema.SameName as bs
  | [], bs, h => by cases bs <;> exact h
  | a :: as, bs, h => by
      cases bs with
      | nil => exact h
      | cons b bs => exact ⟨Value.SameBy.sameName h.1, ItemsSameBy.sameName h.2⟩
termination_by structural as => as

theorem Record.SameBy.sameName : ∀ {a b : Record}, a.SameBy Eq b → a.SameBy Schema.SameName b
  | ⟨_, _, _⟩, _, ⟨hschema, hslots, hextras⟩ =>
      ⟨congrArg Schema.name hschema, SlotsSameBy.sameName hslots, ExtrasSameBy.sameName hextras⟩
termination_by structural a => a

theorem Slot.SameBy.sameName : ∀ {a b : Slot}, a.SameBy Eq b → a.SameBy Schema.SameName b
  | .absent, b, h => by cases b <;> exact h
  | .defaulted a, b, h => by
      cases b with
      | defaulted b => exact Value.SameBy.sameName h
      | _ => exact h
  | .held a, b, h => by
      cases b with
      | held b => exact Value.SameBy.sameName h
      | _ => exact h
termination_by structural a => a

theorem SlotsSameBy.sameName : ∀ {as bs : List Slot},
    SlotsSameBy Eq as bs → SlotsSameBy Schema.SameName as bs
  | [], bs, h => by cases bs <;> exact h
  | a :: as, bs, h => by
      cases bs with
      | nil => exact h
      | cons b bs => exact ⟨Slot.SameBy.sameName h.1, SlotsSameBy.sameName h.2⟩
termination_by structural as => as

theorem ExtrasSameBy.sameName : ∀ {as bs : List (String × Value)},
    ExtrasSameBy Eq as bs → ExtrasSameBy Schema.SameName as bs
  | [], bs, h => by cases bs <;> exact h
  | (_, a) :: as, bs, h => by
      cases bs with
      | nil => exact h
      | cons b bs =>
          exact ⟨⟨h.1.1, Value.SameBy.sameName h.1.2⟩, ExtrasSameBy.sameName h.2⟩
termination_by structural as => as

end

/-! ## Defaults -/

/-- A value is taken for the default of its field if it equals the default, if one of the two is
rounded to the other, or if the two hold records of different schemas of the same name. -/
theorem FieldSpec.isDefault_iff {field : FieldSpec} {value : Value} :
    field.isDefault value = true ↔ ∃ default, field.default? = some (.fixed default) ∧
      (default.Equals value ∨ default.Rounds value ∨ default.Resembles value) := by
  have hsame : ∀ default : Value, default.agrees value = true ↔
      default.SameBy Eq value ∨ default.Resembles value := fun default => by
    rw [Value.agrees_iff, Value.Resembles]
    by_cases h : default.SameBy Eq value
    · exact iff_of_true h.sameName (.inl h)
    · simp [h]
  unfold isDefault
  split
  · rename_i default hdefault
    simp only [hdefault, Option.some.injEq, DefaultValue.fixed.injEq, exists_eq_left']
    split
    · simp [Value.Equals, Value.Rounds, Value.Resembles, Value.SameBy,
        Binary64.agrees_ofInt_iff_or]
    · simp [Value.Equals, Value.Rounds, Value.Resembles, Value.SameBy,
        Binary64.agrees_ofInt_iff_or]
    · rename_i hfloat hint
      have hequals : default.Equals value ↔ default.SameBy Eq value := by
        unfold Value.Equals
        split <;> simp_all
      have hrounds : ¬default.Rounds value := by
        unfold Value.Rounds
        split <;> simp_all
      rw [hsame, hequals, or_iff_right hrounds]
  · rename_i hdefault
    refine iff_of_false (by simp) ?_
    rintro ⟨default, hfixed, _⟩
    exact hdefault default hfixed

namespace Schema

section

variable [CustomCodecs]

/-! ## Writing and reading -/

/-- What is read for a field is held in its place. -/
theorem mem_zip_of_loadRecord {schema : Schema} {members : Json.Members} {record : Drawn Record}
    (h : schema.loadRecord members = .ok record) {field : FieldSpec}
    (hfield : field ∈ schema.fields) {slot : Drawn Slot}
    (hslot : field.loadSlot members = .ok slot) (moment : Moment) :
    ∃ within, (field, slot within) ∈ schema.fields.zip (record moment).slots := by
  obtain ⟨slots, extras, hslots, _, rfl⟩ := loadRecord_cases h
  rw [loadSlots_eq_mapM] at hslots
  obtain ⟨position, hposition⟩ := List.mem_iff_getElem?.1 hfield
  have hread := congrArg (·[position]?) (map_eq_of_mapM hslots)
  simp only [List.getElem?_map, hposition, Option.map_some, hslot] at hread
  obtain ⟨held, hheld, heq⟩ := Option.map_eq_some_iff.1 hread.symm
  obtain rfl := Except.ok.inj heq
  obtain ⟨within, hdrawn⟩ := Drawn.exists_getElem?_all hheld moment
  exact ⟨within, List.mem_of_getElem? (List.getElem?_zip_eq_some.2 ⟨hposition, hdrawn⟩)⟩

theorem loadSlot_of_get?_eq_none {field : FieldSpec} {members : Json.Members}
    {default : DefaultValue} (hget : Assoc.get? field.name members = none)
    (hdefault : field.default? = some default) :
    field.loadSlot members = .ok fun moment => .defaulted (default.produce moment) := by
  obtain ⟨name, type, isRequired, default?, omitsDefault, codec?⟩ := field
  simp only at hget hdefault
  simp [FieldSpec.loadSlot, hget, hdefault]

/-- A value of its own that a record holds is left out exactly where the field omits its default,
and the value is taken for this default, which is then read in its place. -/
theorem dumpRecord_omits_iff {declaration schema : Schema}
    (hbuilt : declaration.build = .ok schema)
    {record : Record} (hshaped : record.IsShaped) (hschema : record.schema = schema)
    {members written : Json.Members} (hsorted : Assoc.Sorted members)
    (hreserved : ∀ key ∈ members.map Prod.fst, key ∈ reservedAttributes)
    (hdump : schema.dumpRecord record members = .ok written)
    {field : FieldSpec} {value : Value}
    (hheld : (field, .held value) ∈ schema.fields.zip record.slots) :
    (Assoc.get? field.name written = none ↔ field.omitsDefault = true ∧
      ∃ default, field.default? = some (.fixed default) ∧
        (default.Equals value ∨ default.Rounds value ∨ default.Resembles value)) ∧
    (Assoc.get? field.name written = none →
      ∃ default, field.default? = some (.fixed default) ∧
        field.loadSlot written = .ok (fun _ => .defaulted default) ∧
        ∀ read, schema.loadRecord written = .ok read →
          ∀ moment, (read moment).get? field.name = .ok (some default)) := by
  have hfield : field ∈ schema.fields := (List.of_mem_zip hheld).1
  have hslot : (Slot.held value).dump field = .ok (Assoc.get? field.name written) := by
    refine List.forall₂_zip (dump_of_dumpRecord hdump ?_ (nodup_of_build hbuilt) ?_ ?_) hheld
    · rw [hshaped.length_slots, hschema]
    · intro key hkey
      exact position?_eq_none_iff.1 (hschema ▸ (hshaped.undeclared key hkey).1)
    · intro key hkey
      exact Assoc.get?_eq_none_of_not_mem fun hmem =>
        not_reserved_of_build hbuilt hkey (hreserved key hmem)
  have homits : Assoc.get? field.name written = none ↔
      field.omitsDefault = true ∧ field.isDefault value = true := by
    rw [← Bool.and_eq_true_iff]
    rcases dump_held hslot with ⟨hnone, homits⟩ | ⟨json, hsome, _⟩
    · exact iff_of_true hnone homits
    · refine iff_of_false (by simp [hsome]) fun homits => ?_
      rw [Slot.dump, if_pos homits, hsome] at hslot
      simp at hslot
  rw [FieldSpec.isDefault_iff] at homits
  refine ⟨homits, fun hnone => ?_⟩
  obtain ⟨default, hdefault, _⟩ := (homits.1 hnone).2
  have hread : field.loadSlot written = .ok fun _ => .defaulted default :=
    loadSlot_of_get?_eq_none hnone hdefault
  refine ⟨default, hdefault, hread, fun read hload moment => ?_⟩
  obtain ⟨_, hmem⟩ := mem_zip_of_loadRecord hload hfield hread moment
  rw [← schema_of_loadRecord hload moment] at hmem
  have hbegun : (read moment).Begun schema := .load (sorted_of_dumpRecord hdump hsorted) hload _
  exact (hbegun.isShaped hbuilt).get?_of_mem_zip hmem

/-- A value of its own that an entity holds is left out exactly where the field omits its default,
and the value equals this default, is rounded to it or the other way, or differs from it only by
schemas of the same name.  In its place the default is read. -/
theorem dump_omits_iff {declaration schema : Schema} (hbuilt : declaration.build = .ok schema)
    {first : Record} (hfirst : first.Begun schema) (changes : List Record.Change)
    {entity : Entity} (hrecord : entity.record = first.afterAll changes)
    {written : Json.Members} (hdump : schema.dump entity = .ok written)
    {field : FieldSpec} {value : Value}
    (hheld : (field, .held value) ∈ schema.fields.zip entity.record.slots) :
    (Assoc.get? field.name written = none ↔ field.omitsDefault = true ∧
      ∃ default, field.default? = some (.fixed default) ∧
        (default.Equals value ∨ default.Rounds value ∨ default.Resembles value)) ∧
    (Assoc.get? field.name written = none →
      ∃ default, field.default? = some (.fixed default) ∧
        field.loadSlot written = .ok (fun _ => .defaulted default) ∧
        ∀ read, schema.load written = .ok read →
          ∀ moment, (read moment).record.get? field.name = .ok (some default)) := by
  have hshaped : entity.record.IsShaped := hrecord ▸ (hfirst.isShaped hbuilt).afterAll changes
  have hschema : entity.record.schema = schema := by
    rw [hrecord, Record.schema_afterAll, hfirst.schema_eq]
  obtain ⟨ends, hends, hwritten⟩ := dump_cases hdump
  obtain ⟨homits, hback⟩ := dumpRecord_omits_iff hbuilt hshaped hschema
    (sorted_of_dumpEndpoints hends) (mem_reserved_of_dumpEndpoints hends) hwritten hheld
  refine ⟨homits, fun hnone => ?_⟩
  obtain ⟨default, hdefault, hread, hget⟩ := hback hnone
  refine ⟨default, hdefault, hread, fun read hload moment => ?_⟩
  obtain ⟨record, _, hrecord, _, _, _, hsame, _⟩ := load_cases hload moment
  rw [hsame]
  exact hget _ hrecord moment

end

section

attribute [local instance] CustomCodecs.none

def gaugeSchema : Schema :=
  ⟨"gauges", .document,
    [⟨"depth", .primitive .float, false, some (.fixed (.int 3)), true, none⟩,
      ⟨"readings", .listOf (.primitive .float), false, some (.fixed (.list [.int 1])), true, none⟩],
    false, []⟩

/-- The depth is written as a float here, as is the reading. -/
def gaugeMembers : Json.Members :=
  [("depth", .number (.float ⟨0x4008000000000000⟩ (by decide))),
    ("readings", .array [.number (.float ⟨0x3FF0000000000000⟩ (by decide))])]

def gauge : Entity :=
  ⟨⟨gaugeSchema, [.held (.float ⟨0x4008000000000000⟩),
    .held (.list [.float ⟨0x3FF0000000000000⟩])], []⟩, ⟨none, none, none⟩, none, none, .unbound⟩

/-- The depth equals its default and is left out; the reading does not, being no integer. -/
theorem dump_omits_iff_gauge :
    gaugeSchema.build = .ok gaugeSchema ∧ gaugeSchema.load gaugeMembers = .ok (fun _ => gauge) ∧
      ∃ written, gaugeSchema.dump gauge = .ok written ∧
        Assoc.get? "depth" written = none ∧ Assoc.get? "readings" written ≠ none ∧
        ∀ read, gaugeSchema.load written = .ok read →
          ∀ moment, (read moment).record.get? "depth" = .ok (some (.int 3)) := by
  have hbuilt : gaugeSchema.build = .ok gaugeSchema := by rfl
  have hload : gaugeSchema.load gaugeMembers = .ok fun _ => gauge := by rfl
  have hrecord : gaugeSchema.loadRecord gaugeMembers = .ok fun _ => gauge.record := by rfl
  have hsorted : Assoc.Sorted gaugeMembers := List.pairwise_pair.2 (by decide)
  have hbegun : gauge.record.Begun gaugeSchema := .load hsorted hrecord .declared
  have hequals : (Value.int 3).Equals (.float ⟨0x4008000000000000⟩) := by
    show _ ∧ _
    decide +kernel
  obtain ⟨written, hdump⟩ :=
    exists_of_isOk (by decide +kernel : (gaugeSchema.dump gauge).isOk)
  obtain ⟨hdepth, hread⟩ := dump_omits_iff hbuilt hbegun [] rfl hdump (.head _)
  obtain ⟨hreadings, _⟩ := dump_omits_iff hbuilt hbegun [] rfl hdump (.tail _ (.head _))
  have hnone := hdepth.2 ⟨rfl, _, rfl, .inl hequals⟩
  refine ⟨hbuilt, hload, written, hdump, hnone, fun homitted => ?_, fun read hload => ?_⟩
  · obtain ⟨_, _, hdefault, hreason⟩ := hreadings.1 homitted
    cases hdefault
    simp [Value.Equals, Value.Rounds, Value.Resembles, Value.SameBy, ItemsSameBy] at hreason
  · obtain ⟨default, hdefault, _, hback⟩ := hread hnone
    cases hdefault
    exact hback read hload

def scoreSchema : Schema :=
  ⟨"scores", .document,
    [⟨"score", .primitive .float, false, some (.fixed (.float ⟨0x4340000000000000⟩)), true, none⟩],
    false, []⟩

/-- The score 2 ^ 53 + 1, which no double stands for. -/
def score : Entity :=
  ⟨⟨scoreSchema, [.held (.int 9007199254740993)], []⟩, ⟨none, none, none⟩, none, none, .unbound⟩

def buoyPart : Schema :=
  ⟨"part", .embedded, [⟨"buoy", .string, false, none, false, none⟩], false, []⟩

def beaconPart : Schema :=
  ⟨"part", .embedded, [⟨"beacon", .string, false, none, false, none⟩], false, []⟩

def markSchema : Schema :=
  ⟨"marks", .document, [⟨"part", .nested buoyPart, false,
    some (.fixed (.object ⟨buoyPart, [.held (.string "red")], []⟩)), true, none⟩], false, []⟩

def mark : Entity :=
  (Mutation.set "part" (.object ⟨beaconPart, [.held (.string "red")], []⟩)).apply
    (Entity.new markSchema .declared)

/-- An integer that is rounded to the default is left out, and so is a record that is told from the
default only by its schema. -/
theorem dump_omits_unequal :
    (scoreSchema.build = .ok scoreSchema ∧
      scoreSchema.load [("score", .number (.integer 9007199254740993 (by decide)))] =
        .ok (fun _ => score) ∧
      scoreSchema.dump score = .ok [] ∧
      ¬(Value.float ⟨0x4340000000000000⟩).Equals (.int 9007199254740993)) ∧
    markSchema.build = .ok markSchema ∧
      mark.record.get? "part" = .ok (some (.object ⟨beaconPart, [.held (.string "red")], []⟩)) ∧
      markSchema.dump mark = .ok [] ∧
      ¬(Value.object ⟨buoyPart, [.held (.string "red")], []⟩).Equals
        (.object ⟨beaconPart, [.held (.string "red")], []⟩) := by
  refine ⟨⟨by rfl, by rfl, by decide +kernel, ?_⟩, by rfl, by rfl, by decide +kernel, ?_⟩
  · show ¬(_ ∧ _)
    decide +kernel
  · rintro ⟨hschema, _⟩
    have hnames := congrArg (fun schema => schema.fields.map FieldSpec.name) hschema
    exact absurd hnames (by decide)

end

end Schema

end DocGraph
