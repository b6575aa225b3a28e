import DocGraph.Proofs.Entity.Edit
import DocGraph.Proofs.Schema.Built
import DocGraph.Proofs.Schema.RoundTrip
import Mathlib.Data.List.Forall2
/-!
# What programs can make

Programs build schemas, and come by records by starting one, reading one and changing one field at
a time.  What is made in this way keeps to its declarations: every field holds a value that it
takes, one that its codec has read or one that its factory has made, and no other field is named
like one that is declared.

Rows of queries are left out.  The schemas of projections are not built but derived, with any names
for their fields, and a program that nests one or keeps a record of one is not spoken of here.
-/

namespace DocGraph

open Outcome

theorem forall₂_set {α β : Type} {related : α → β → Prop} {left : List α} {right : List β}
    (h : List.Forall₂ related left right) {position : Nat} {b : β}
    (hb : ∀ a, left[position]? = some a → related a b) :
    List.Forall₂ related left (right.set position b) := by
  induction h generalizing position with
  | nil => exact .nil
  | @cons a _ _ _ hhead hrest ih =>
      cases position with
      | zero => exact .cons (hb a rfl) hrest
      | succ position => exact .cons hhead (ih fun a ha => hb a ha)

/-! ## Kinds of values -/

def Primitive.Fits : Primitive → Value → Prop
  | .any, _ => True
  | .string, .string _ => True
  | .int, .int _ => True
  | .float, .float _ => True
  | .float, .int _ => True
  | .bool, .bool _ => True
  | .datetime, .datetime _ => True
  | .uuid, .uuid _ => True
  | _, _ => False

/-- Whether a value is of the kind that a type asks for; a record need only be of a schema of the
right name. -/
def FieldType.Fits : FieldType → Value → Prop
  | _, .null => True
  | .primitive kind, value => kind.Fits value
  | .nested schema, .object record => record.schema.name = schema.name
  | .listOf item, .list items => ∀ value ∈ items, item.Fits value
  | _, _ => False
termination_by structural type => type

theorem FieldType.Fits.null (type : FieldType) : type.Fits .null := by
  cases type <;> trivial

section

variable [CustomCodecs]

/-! ## Schemas, values and records that can be made -/

mutual

/-- A schema that was built, with nested schemas that were built before. -/
inductive Schema.Made : Schema → Prop
  | build {schema : Schema} (hbuilt : schema.build = .ok schema)
      (htypes : ∀ field ∈ schema.fields, FieldType.Made field.type)
      (hdefaults : ∀ field ∈ schema.fields, ∀ value, field.defaultValue? = some value →
        ∀ moment, Value.Made (value moment)) : Schema.Made schema

inductive FieldType.Made : FieldType → Prop
  | primitive (kind : Primitive) : FieldType.Made (.primitive kind)
  | nested {schema : Schema} (h : Schema.Made schema) : FieldType.Made (.nested schema)
  | listOf {item : FieldType} (h : FieldType.Made item) : FieldType.Made (.listOf item)

inductive Value.Made : Value → Prop
  | null : Value.Made .null
  | bool (b : Bool) : Value.Made (.bool b)
  | int (i : Int64) : Value.Made (.int i)
  | float (x : Binary64) : Value.Made (.float x)
  | string (s : String) : Value.Made (.string s)
  | datetime (instant : Instant) : Value.Made (.datetime instant)
  | uuid (id : Uuid) : Value.Made (.uuid id)
  | list {items : List Value} (h : ∀ item ∈ items, Value.Made item) : Value.Made (.list items)
  | object {record : Record} (h : Record.Made record) : Value.Made (.object record)
  | json (value : Json) : Value.Made (.json value)

/-- A record that was started or read, and then changed field by field.  The codecs of a program
make their values as the rest of it does. -/
inductive Record.Made : Record → Prop
  | new {schema : Schema} (h : Schema.Made schema) (moment : Moment) :
      Record.Made (Record.new schema moment)
  | load {schema : Schema} {members : Json.Members} {record : Drawn Record}
      (h : Schema.Made schema) (hordered : (Json.object members).isOrdered = true)
      (hcodecs : ∀ number field raw value,
        (CustomCodecs.codec number).decode field raw = .ok value → Value.Made value)
      (hload : schema.loadRecord members = .ok record) (moment : Moment) :
      Record.Made (record moment)
  | set {record after : Record} {name : String} {value : Value} (h : Record.Made record)
      (hvalue : Value.Made value) (hset : record.set name value = .ok after) : Record.Made after
  | remove {record after : Record} {name : String} {previous : Option Value}
      (h : Record.Made record) (hremove : record.remove name = .ok (previous, after)) :
      Record.Made after

end

/-! ## Values that a field holds -/

def FieldSpec.Takes (field : FieldSpec) (value : Value) : Prop :=
  (field.isRequired = true → value.isNull = false) ∧ field.type.Fits value

/-- Whether the codec of a field reads a value; the type of the field has no say in it. -/
def FieldSpec.Reads (field : FieldSpec) (value : Value) : Prop :=
  ∃ codec raw, field.codec? = some codec ∧ raw ≠ .null ∧
    codec.decode field.name raw = .ok value

/-- Whether the factory of a field makes a value; what it makes for a record is not checked. -/
def FieldSpec.Draws (field : FieldSpec) (value : Value) : Prop :=
  ∃ products moment, field.default? = some (.factory products) ∧ products moment = value

def FieldSpec.MayHold (field : FieldSpec) (value : Value) : Prop :=
  value.Made ∧ (field.Takes value ∨ field.Reads value ∨ field.Draws value)

def FieldSpec.Holds (field : FieldSpec) : Slot → Prop
  | .absent => True
  | .defaulted value => field.default?.isSome = true ∧ field.MayHold value
  | .held value => field.MayHold value

structure Record.Keeps (record : Record) : Prop where
  made : record.schema.Made
  slots : List.Forall₂ FieldSpec.Holds record.schema.fields record.slots
  nodup : (record.extras.map Prod.fst).Nodup
  extras : ∀ key ∈ record.extras.map Prod.fst, record.schema.isIdentity key = false ∧
    key ∉ record.schema.fields.map FieldSpec.name ∧ record.schema.isOpen = true

/-- The codecs of a program read nothing but what can be made. -/
def CustomCodecs.ReadMade : Prop :=
  ∀ number field raw value, (CustomCodecs.codec number).decode field raw = .ok value → value.Made

theorem Schema.Made.built {schema : Schema} (h : schema.Made) : schema.build = .ok schema := by
  cases h
  assumption

theorem Schema.Made.types {schema : Schema} (h : schema.Made) :
    ∀ field ∈ schema.fields, field.type.Made := by
  cases h
  assumption

theorem Schema.Made.defaults {schema : Schema} (h : schema.Made) :
    ∀ field ∈ schema.fields, ∀ value, field.defaultValue? = some value →
      ∀ moment, (value moment).Made := by
  cases h
  assumption

theorem FieldType.Made.schema {schema : Schema} (h : (FieldType.nested schema).Made) :
    schema.Made := by
  cases h
  assumption

theorem FieldType.Made.item {item : FieldType} (h : (FieldType.listOf item).Made) :
    item.Made := by
  cases h
  assumption

theorem Value.Made.items {items : List Value} (h : (Value.list items).Made) :
    ∀ item ∈ items, item.Made := by
  cases h
  assumption

theorem Value.Made.record {record : Record} (h : (Value.object record).Made) : record.Made := by
  cases h
  assumption

theorem Schema.made_of_isOk {schema : Schema} (h : schema.build.isOk)
    (htypes : ∀ field ∈ schema.fields, field.type.Made)
    (hdefaults : ∀ field ∈ schema.fields, ∀ value, field.defaultValue? = some value →
      ∀ moment, (value moment).Made) : schema.Made := by
  obtain ⟨built, hbuilt⟩ := exists_of_isOk h
  obtain rfl := (Schema.build_eq_ok hbuilt).1
  exact .build hbuilt htypes hdefaults

/-! ## Accepted values -/

theorem FieldType.fits_of_check_primitive {kind : Primitive} {field : String}
    {value checked : Value} (h : (FieldType.primitive kind).check field value = .ok checked)
    (hmade : value.Made) :
    checked.Made ∧ (FieldType.primitive kind).Fits value ∧
      (FieldType.primitive kind).Fits checked ∧ checked.isNull = value.isNull := by
  cases kind <;> cases value <;> simp only [FieldType.check, Except.ok.injEq, reduceCtorEq] at h
  all_goals
    subst h
    refine ⟨?_, trivial, trivial, rfl⟩
    first
    | exact hmade
    | exact .float _

theorem FieldType.fits_of_check : ∀ (type : FieldType) {field : String} {value checked : Value},
    type.check field value = .ok checked → value.Made →
    checked.Made ∧ type.Fits value ∧ type.Fits checked ∧ checked.isNull = value.isNull
  | .primitive _, _, _, _, h, hmade => FieldType.fits_of_check_primitive h hmade
  | .nested schema, _, value, _, h, hmade => by
      cases value with
      | null =>
          obtain rfl := Except.ok.inj h
          exact ⟨.null, trivial, trivial, rfl⟩
      | object record =>
          simp only [FieldType.check] at h
          split at h
          · rename_i hname
            obtain rfl := Except.ok.inj h
            exact ⟨hmade, hname, hname, rfl⟩
          · simp at h
      | _ => simp [FieldType.check] at h
  | .listOf item, field, value, _, h, hmade => by
      cases value with
      | null =>
          obtain rfl := Except.ok.inj h
          exact ⟨.null, trivial, trivial, rfl⟩
      | list values =>
          obtain ⟨checked, hchecked, h⟩ := bind_eq_ok_iff.1 h
          obtain rfl := Except.ok.inj h
          have hitem : ∀ value checked, item.check field value = .ok checked → value ∈ values →
              checked.Made ∧ item.Fits value ∧ item.Fits checked := fun value checked h hmem => by
            obtain ⟨hchecked, hfits, hfits', _⟩ :=
              FieldType.fits_of_check item h (hmade.items value hmem)
            exact ⟨hchecked, hfits, hfits'⟩
          refine ⟨.list fun result hmem => ?_, fun value hmem => ?_, fun result hmem => ?_, rfl⟩
          · obtain ⟨value, hvalue, h⟩ := exists_item_of_mapM hchecked result hmem
            exact (hitem value result h hvalue).1
          · obtain ⟨result, _, h⟩ := exists_result_of_mapM hchecked value hmem
            exact (hitem value result h hmem).2.1
          · obtain ⟨value, hvalue, h⟩ := exists_item_of_mapM hchecked result hmem
            exact (hitem value result h hvalue).2.2
      | _ => simp [FieldType.check] at h
termination_by structural type => type

theorem FieldSpec.takes_of_accept {field : FieldSpec} {value accepted : Value}
    (h : field.accept value = .ok accepted) (hmade : value.Made) :
    field.Takes value ∧ field.Takes accepted ∧ accepted.Made := by
  unfold FieldSpec.accept at h
  split at h
  · simp at h
  · rename_i hnull
    obtain ⟨haccepted, hfits, hfits', hsame⟩ := FieldType.fits_of_check _ h hmade
    have hrequired : field.isRequired = true → value.isNull = false := fun hrequired =>
      Bool.of_not_eq_true fun hvalue => hnull ⟨hvalue, hrequired⟩
    exact ⟨⟨hrequired, hfits⟩, ⟨hsame ▸ hrequired, hfits'⟩, haccepted⟩

/-- A field may hold its default, which was checked if it is fixed. -/
theorem FieldSpec.mayHold_default {schema : Schema} (hmade : schema.Made) {field : FieldSpec}
    (hmem : field ∈ schema.fields) {default : DefaultValue}
    (hdefault : field.default? = some default) (moment : Moment) :
    field.MayHold (default.produce moment) := by
  have hvalue : field.defaultValue? = some default.produce := by
    rw [FieldSpec.defaultValue?, hdefault, Option.map_some]
  have hproduct := hmade.defaults field hmem _ hvalue moment
  refine ⟨hproduct, ?_⟩
  cases default with
  | fixed value =>
      obtain ⟨_, haccepted⟩ := Schema.accept_default_of_build hmade.built hmem hvalue
      exact .inl (FieldSpec.takes_of_accept haccepted hproduct).1
  | factory products => exact .inr (.inr ⟨products, moment, hdefault, rfl⟩)

/-! ## Decoded values -/

theorem Codec.made_of_decode (hcodecs : CustomCodecs.ReadMade) {codec : Codec} {field : String}
    {raw : Json} {value : Value} (h : codec.decode field raw = .ok value) : value.Made := by
  cases codec with
  | epochMillis =>
      simp only [decode, meaning, FieldCodec.epochMillis] at h
      split at h
      · obtain rfl := Except.ok.inj h
        exact .datetime _
      · simp at h
  | custom number => exact hcodecs number field raw value h

theorem FieldType.fits_of_decode_primitive {kind : Primitive} {field : String} {raw : Json}
    {value : Value} (h : kind.decode field raw = .ok value) :
    value.Made ∧ (FieldType.primitive kind).Fits value ∧
      (raw ≠ .null → value.isNull = false) := by
  cases Primitive.decode_eq_ok_iff.1 h with
  | any raw =>
      refine ⟨.json raw, trivial, fun hnull => ?_⟩
      cases raw <;> simp [Value.isNull, Json.isNull] at hnull ⊢
  | null => exact ⟨.null, .null _, fun hnull => absurd rfl hnull⟩
  | string => exact ⟨.string _, trivial, fun _ => rfl⟩
  | bool => exact ⟨.bool _, trivial, fun _ => rfl⟩
  | int | integer => exact ⟨.int _, trivial, fun _ => rfl⟩
  | float => exact ⟨.float _, trivial, fun _ => rfl⟩
  | datetime => exact ⟨.datetime _, trivial, fun _ => rfl⟩
  | uuid => exact ⟨.uuid _, trivial, fun _ => rfl⟩

/-- A value that is decoded fits, and is null only where the text is. -/
theorem FieldType.fits_of_decode (hcodecs : CustomCodecs.ReadMade) : ∀ (type : FieldType)
    {field : String} {raw : Json} {value : Drawn Value}, type.Made → raw.isOrdered →
    type.decode field raw = .ok value → ∀ moment,
    (value moment).Made ∧ type.Fits (value moment) ∧ (raw ≠ .null → (value moment).isNull = false)
  | .primitive _, _, _, _, _, _, h, _ => by
      obtain ⟨found, hfound, rfl⟩ := FieldType.decode_primitive_eq_ok_iff.1 h
      exact FieldType.fits_of_decode_primitive hfound
  | .nested schema, _, raw, _, hmade, hordered, h, moment => by
      obtain ⟨rfl, rfl⟩ | ⟨members, record, rfl, hrecord, rfl⟩ :=
        FieldType.decode_nested_eq_ok_iff.1 h
      · exact ⟨.null, trivial, by simp⟩
      · refine ⟨.object (.load hmade.schema hordered hcodecs hrecord moment), ?_, fun _ => rfl⟩
        exact congrArg Schema.name (Schema.schema_of_loadRecord hrecord moment)
  | .listOf item, field, raw, _, hmade, hordered, h, moment => by
      obtain ⟨rfl, rfl⟩ | ⟨raws, values, rfl, hvalues, rfl⟩ :=
        FieldType.decode_listOf_eq_ok_iff.1 h
      · exact ⟨.null, trivial, by simp⟩
      · have hitem : ∀ value ∈ Drawn.all values moment, value.Made ∧ item.Fits value := by
          intro value hmem
          obtain ⟨drawn, hdrawn, within, rfl⟩ := Drawn.exists_of_mem_all hmem
          obtain ⟨raw, hraw, h⟩ := exists_item_of_mapM hvalues drawn hdrawn
          obtain ⟨hvalue, hfits, _⟩ := FieldType.fits_of_decode hcodecs item hmade.item
            (Json.isOrdered_of_mem hordered raw hraw) h within
          exact ⟨hvalue, hfits⟩
        exact ⟨.list fun value hmem => (hitem value hmem).1, fun value hmem =>
          (hitem value hmem).2, fun _ => rfl⟩
termination_by structural type => type

theorem FieldSpec.holds_of_loadSlot (hcodecs : CustomCodecs.ReadMade) {schema : Schema}
    (hmade : schema.Made) {field : FieldSpec} (hmem : field ∈ schema.fields)
    {members : Json.Members} (hordered : Json.membersOrdered members) {slot : Drawn Slot}
    (h : field.loadSlot members = .ok slot) (moment : Moment) : field.Holds (slot moment) := by
  rcases FieldSpec.loadSlot_cases h with ⟨_, ⟨default, hdefault, rfl⟩ | ⟨_, rfl⟩⟩ |
    ⟨_, hoptional, rfl⟩ |
    ⟨raw, value, hget, hnull, rfl, ⟨codec, found, hcodec, hfound, rfl⟩ | ⟨_, hvalue⟩⟩
  · exact ⟨Option.isSome_iff_exists.2 ⟨default, hdefault⟩,
      FieldSpec.mayHold_default hmade hmem hdefault moment⟩
  · trivial
  · exact ⟨.null, .inl ⟨by simp [hoptional], FieldType.Fits.null _⟩⟩
  · exact ⟨Codec.made_of_decode hcodecs hfound, .inr (.inl ⟨codec, raw, hcodec, hnull, hfound⟩)⟩
  · obtain ⟨hvalueMade, hfits, hvalueNull⟩ := FieldType.fits_of_decode hcodecs field.type
      (hmade.types field hmem) (Json.isOrdered_of_get? hordered hget) hvalue moment
    exact ⟨hvalueMade, .inl ⟨fun _ => hvalueNull hnull, hfits⟩⟩

theorem forall₂_of_loadSlots {related : FieldSpec → Slot → Prop} {fields : List FieldSpec}
    {members : Json.Members} {slots : List (Drawn Slot)}
    (h : loadSlots fields members = .ok slots)
    (hread : ∀ field ∈ fields, ∀ slot, field.loadSlot members = .ok slot →
      ∀ moment, related field (slot moment)) (moment : Moment) :
    List.Forall₂ related fields (Drawn.all slots moment) := by
  induction fields generalizing slots moment with
  | nil =>
      obtain rfl := Except.ok.inj h
      exact .nil
  | cons field fields ih =>
      obtain ⟨hfield, hfields⟩ := List.forall_mem_cons.1 hread
      obtain ⟨slot, hslot, h⟩ := bind_eq_ok_iff.1 h
      obtain ⟨slots, hslots, h⟩ := bind_eq_ok_iff.1 h
      obtain rfl := Except.ok.inj h
      exact .cons (hfield slot hslot moment.first) (ih hslots hfields moment.later)

/-! ## Records keep to their schemas -/

namespace Record

theorem holds_newSlot {schema : Schema} (h : schema.Made) {field : FieldSpec}
    (hmem : field ∈ schema.fields) (moment : Moment) : field.Holds (newSlot field moment) := by
  cases hdefault : field.default? with
  | none =>
      simp only [newSlot, FieldSpec.defaultValue?, hdefault, Option.map_none]
      trivial
  | some default =>
      simp only [newSlot, FieldSpec.defaultValue?, hdefault, Option.map_some]
      exact FieldSpec.mayHold_default h hmem hdefault moment

theorem keeps_new {schema : Schema} (h : schema.Made) (moment : Moment) :
    (Record.new schema moment).Keeps where
  made := h
  slots := Drawn.forall₂_all_map (fun _ hmem within => holds_newSlot h hmem within) moment
  nodup := List.nodup_nil
  extras := by simp [Record.new]

theorem keeps_load {schema : Schema} {members : Json.Members} {record : Drawn Record}
    (h : schema.Made) (hordered : (Json.object members).isOrdered)
    (hcodecs : CustomCodecs.ReadMade) (hload : schema.loadRecord members = .ok record)
    (moment : Moment) : (record moment).Keeps := by
  obtain ⟨slots, extras, hslots, hextras, rfl⟩ := Schema.loadRecord_cases hload
  obtain ⟨hsorted, hmembers⟩ := Json.isOrdered_object.1 hordered
  have hholds := forall₂_of_loadSlots hslots (fun field hmem _ hslot =>
    FieldSpec.holds_of_loadSlot hcodecs h hmem hmembers hslot) moment
  refine ⟨h, hholds, ?_, Schema.loadExtras_keys hextras⟩
  obtain rfl := Schema.loadExtras_eq hextras
  simpa [Function.comp_def] using Assoc.nodup_keys (Schema.sorted_undeclared hsorted)

theorem Keeps.set {record after : Record} {name : String} {value : Value} (h : record.Keeps)
    (hvalue : value.Made) (hset : record.set name value = .ok after) : after.Keeps := by
  obtain ⟨position, field, accepted, _, hfield, haccepted, rfl⟩ | ⟨hposition, hopen, hplain, rfl⟩ :=
    set_cases hset
  · refine { h with slots := forall₂_set h.slots fun other hother => ?_ }
    obtain rfl := Option.some.inj (hfield.symm.trans hother)
    obtain ⟨_, htakes, haccepted⟩ := FieldSpec.takes_of_accept haccepted hvalue
    exact ⟨haccepted, .inl htakes⟩
  · refine { h with nodup := nodup_putExtra h.nodup, extras := fun key hkey => ?_ }
    rcases mem_putExtra hkey with rfl | hkey
    · exact ⟨by simp [Schema.isIdentity, hplain], Schema.position?_eq_none_iff.1 hposition, hopen⟩
    · exact h.extras key hkey

theorem Keeps.remove {record after : Record} {name : String} {previous : Option Value}
    (h : record.Keeps) (hremove : record.remove name = .ok (previous, after)) : after.Keeps := by
  obtain ⟨position, _, _, rfl⟩ | ⟨_, _, _, rfl⟩ := remove_cases hremove
  · exact { h with slots := forall₂_set h.slots fun _ _ => trivial }
  · have hsublist := (dropExtra_sublist name record.extras).map Prod.fst
    exact { h with
      nodup := h.nodup.sublist hsublist
      extras := fun key hkey => h.extras key (hsublist.subset hkey) }

-- Predicates that are declared together have no induction of this form by themselves.
@[elab_as_elim, induction_eliminator]
theorem Made.induct {motive : (record : Record) → record.Made → Prop}
    (new : ∀ {schema} (hschema : Schema.Made schema) (moment),
      motive (Record.new schema moment) (.new hschema moment))
    (load : ∀ {schema members record} (hschema : Schema.Made schema)
      (hordered : (Json.object members).isOrdered = true) (hcodecs : CustomCodecs.ReadMade)
      (hload : schema.loadRecord members = .ok record) (moment),
      motive (record moment) (.load hschema hordered hcodecs hload moment))
    (set : ∀ {record after name value} (h : Record.Made record) (hvalue : Value.Made value)
      (hset : record.set name value = .ok after),
      motive record h → motive after (.set h hvalue hset))
    (remove : ∀ {record after name previous} (h : Record.Made record)
      (hremove : record.remove name = .ok (previous, after)),
      motive record h → motive after (.remove h hremove)) :
    ∀ {record : Record} (h : record.Made), motive record h
  | _, .new hschema moment => new hschema moment
  | .(_), @Made.load _ _ _ _ hschema hordered hcodecs hload moment =>
      load hschema hordered hcodecs hload moment
  | _, .set h hvalue hset => set h hvalue hset (Made.induct new load set remove h)
  | _, .remove h hremove => remove h hremove (Made.induct new load set remove h)

theorem Made.keeps {record : Record} (h : record.Made) : record.Keeps := by
  induction h with
  | new hschema moment => exact keeps_new hschema moment
  | load hschema hordered hcodecs hload moment =>
      exact keeps_load hschema hordered hcodecs hload moment
  | set h hvalue hset ih => exact ih.set hvalue hset
  | remove h hremove ih => exact ih.remove hremove

end Record

end

end DocGraph
