import DocGraph.Proofs.Record.Aligned
import DocGraph.Proofs.Schema.Path
/-!
# The shape of records

A record that was started or loaded, and then changed, has a slot for each declared field, and its
other fields have names of their own.  In a record of this shape, what is read by name is what is
listed, and a call changes what is read by one name.
-/

namespace DocGraph

open Outcome

/-! ## Widened values -/

/-- The value as it is held by a field of a type: where floats are asked for, integers become
floats. -/
def FieldType.widen : FieldType → Value → Value
  | .primitive .float, .int i => .float (Binary64.ofInt i.toInt)
  | .listOf item, .list items => .list (items.map item.widen)
  | _, value => value
termination_by structural type => type

def Schema.widen (schema : Schema) (name : String) (value : Value) : Value :=
  match schema.field? name with
  | some field => field.type.widen value
  | none => value

theorem FieldType.eq_widen_of_check : ∀ (type : FieldType) {field : String}
    {value accepted : Value}, type.check field value = .ok accepted → accepted = type.widen value
  | .primitive kind, _, value, _, h => by
      cases kind <;> cases value <;>
        simp only [FieldType.check, Except.ok.injEq, reduceCtorEq] at h <;> exact h.symm
  | .nested schema, _, value, _, h => by
      cases value with
      | null => exact (Except.ok.inj h).symm
      | object record =>
          simp only [FieldType.check] at h
          split at h
          · exact (Except.ok.inj h).symm
          · simp at h
      | _ => simp [FieldType.check] at h
  | .listOf item, field, value, _, h => by
      cases value with
      | null => exact (Except.ok.inj h).symm
      | list values =>
          obtain ⟨accepted, haccepted, h⟩ := bind_eq_ok_iff.1 h
          obtain rfl := Except.ok.inj h
          exact congrArg Value.list
            (eq_map_of_mapM (fun _ _ h => item.eq_widen_of_check h) haccepted)
      | _ => simp [FieldType.check] at h
termination_by structural type => type

namespace Record

/-! ## The shape of records -/

/-- A record with a slot for each field, whose other fields have names of their own. -/
structure IsShaped (record : Record) : Prop where
  nodup : (record.schema.fields.map FieldSpec.name).Nodup
  length_slots : record.slots.length = record.schema.fields.length
  nodup_extras : (record.extras.map Prod.fst).Nodup
  undeclared : ∀ key ∈ record.extras.map Prod.fst,
    record.schema.position? key = none ∧ record.schema.isOpen = true

/-- A record that was started, or loaded from the members of an object, which are in the order of
their keys. -/
inductive Begun [CustomCodecs] (schema : Schema) : Record → Prop
  | new (moment : Moment) : Begun schema (Record.new schema moment)
  | load {members : Json.Members} {record : Drawn Record} (hsorted : Assoc.Sorted members)
      (h : schema.loadRecord members = .ok record) (moment : Moment) :
      Begun schema (record moment)

section

variable [CustomCodecs]

theorem Begun.schema_eq {schema : Schema} {record : Record} (h : record.Begun schema) :
    record.schema = schema := by
  cases h with
  | new moment => rfl
  | load _ h moment => exact Schema.schema_of_loadRecord h moment

theorem Begun.sorted_extras {schema : Schema} {record : Record} (h : record.Begun schema) :
    (record.extras.map Prod.fst).Pairwise (· < ·) := by
  cases h with
  | new moment => exact .nil
  | load hsorted h moment =>
      obtain ⟨slots, extras, _, hextras, rfl⟩ := Schema.loadRecord_cases h
      obtain rfl := Schema.loadExtras_eq hextras
      simpa [Function.comp_def] using Assoc.sorted_iff_keys.1 (Schema.sorted_undeclared hsorted)

theorem Begun.isShaped {declaration schema : Schema} (hbuilt : declaration.build = .ok schema)
    {record : Record} (h : record.Begun schema) : record.IsShaped where
  nodup := h.schema_eq ▸ Schema.nodup_of_build hbuilt
  length_slots := by
    cases h with
    | new moment => simp [Record.new]
    | load _ h moment =>
        obtain ⟨slots, extras, hslots, _, rfl⟩ := Schema.loadRecord_cases h
        rw [Schema.loadSlots_eq_mapM] at hslots
        simpa using congrArg List.length (map_eq_of_mapM hslots).symm
  nodup_extras := Assoc.nodup_keys (Assoc.sorted_iff_keys.2 h.sorted_extras)
  undeclared := by
    cases h with
    | new moment => simp [Record.new]
    | load _ h moment =>
        obtain ⟨slots, extras, _, hextras, rfl⟩ := Schema.loadRecord_cases h
        intro key hkey
        obtain ⟨_, hundeclared, hopen⟩ := Schema.loadExtras_keys hextras key hkey
        exact ⟨Schema.position?_eq_none_iff.2 hundeclared, hopen⟩

end

namespace IsShaped

variable {record : Record} (h : record.IsShaped)
include h

theorem lt_length {name : String} {position : Nat}
    (hposition : record.schema.position? name = some position) :
    position < record.slots.length := by
  obtain ⟨hlt, _⟩ := List.findIdx?_eq_some_iff_getElem.1 hposition
  exact h.length_slots ▸ hlt

theorem get?_of_mem_zip {field : FieldSpec} {slot : Slot}
    (hmem : (field, slot) ∈ record.schema.fields.zip record.slots) :
    record.get? field.name = .ok slot.value? := by
  obtain ⟨position, hpair⟩ := List.mem_iff_getElem?.1 hmem
  obtain ⟨hfield, hslot⟩ := List.getElem?_zip_eq_some.1 hpair
  obtain ⟨hposition, _⟩ := Schema.find_of_nodup h.nodup hfield
  simp [get?, hposition, slotValue?, hslot]

theorem exists_mem_zip {name : String} {position : Nat}
    (hposition : record.schema.position? name = some position) :
    ∃ field slot, (field, slot) ∈ record.schema.fields.zip record.slots ∧ field.name = name := by
  obtain ⟨field, hfield, hname⟩ := Schema.position?_eq_some hposition
  obtain ⟨slot, hslot⟩ : ∃ slot, record.slots[position]? = some slot :=
    ⟨_, List.getElem?_eq_getElem (h.lt_length hposition)⟩
  have hpair : (record.schema.fields.zip record.slots)[position]? = some (field, slot) :=
    List.getElem?_zip_eq_some.2 ⟨hfield, hslot⟩
  exact ⟨field, slot, List.mem_of_getElem? hpair, hname⟩

theorem get?_eq_some_iff {name : String} {value : Value} :
    record.get? name = .ok (some value) ↔ (name, value) ∈ record.entries := by
  have hextra : ∀ value, (name, value) ∈ record.extras →
      record.get? name = .ok (some value) := fun value hmem => by
    obtain ⟨hposition, hopen⟩ := h.undeclared name (List.mem_map_of_mem hmem)
    simp [get?, hposition, hopen, Assoc.lookup_eq_get?,
      Assoc.get?_eq_some_of_mem h.nodup_extras hmem]
  constructor
  · intro hget
    refine List.mem_append.2 ?_
    cases hposition : record.schema.position? name with
    | some position =>
        obtain ⟨field, slot, hmem, rfl⟩ := h.exists_mem_zip hposition
        rw [h.get?_of_mem_zip hmem] at hget
        exact .inl (List.mem_filterMap.2 ⟨_, hmem, by simp [Except.ok.inj hget]⟩)
    | none =>
        simp only [get?, hposition] at hget
        split at hget
        · rw [Assoc.lookup_eq_get?] at hget
          exact .inr (Assoc.mem_of_get?_eq_some (Except.ok.inj hget))
        · simp [unknown] at hget
  · intro hmem
    rcases List.mem_append.1 hmem with hmem | hmem
    · obtain ⟨⟨field, slot⟩, hpair, heq⟩ := List.mem_filterMap.1 hmem
      obtain ⟨found, hfound, heq⟩ := Option.map_eq_some_iff.1 heq
      obtain ⟨rfl, rfl⟩ := Prod.mk.inj heq
      rw [h.get?_of_mem_zip hpair, hfound]
    · exact hextra value hmem

theorem contains_iff {name : String} : record.contains name = true ↔ name ∈ record.keys := by
  have hget : record.contains name = true ↔ ∃ value, record.get? name = .ok (some value) := by
    unfold contains
    split <;> simp_all
  simp [hget, h.get?_eq_some_iff, keys]

theorem keys_eq : record.keys =
    (record.schema.fields.map FieldSpec.name).filter record.contains ++
      record.extras.map Prod.fst := by
  have hzip : (record.schema.fields.zip record.slots).map Prod.fst = record.schema.fields :=
    List.map_fst_zip (Nat.le_of_eq h.length_slots.symm)
  have hpresent : ∀ pair ∈ record.schema.fields.zip record.slots,
      (pair.2.value?.map fun _ => pair.1.name) =
        Option.guard record.contains pair.1.name := by
    rintro ⟨field, slot⟩ hmem
    have hcontains : record.contains field.name = slot.value?.isSome := by
      unfold contains
      rw [h.get?_of_mem_zip hmem]
      cases slot.value? <;> rfl
    cases hvalue : slot.value? <;> simp [Option.guard, hcontains, hvalue]
  rw [keys, entries, List.map_append, List.map_filterMap]
  refine congrArg (· ++ _) ?_
  calc _ = (record.schema.fields.zip record.slots).filterMap
        (fun pair => Option.guard record.contains pair.1.name) := by
          refine List.filterMap_congr fun pair hmem => ?_
          rw [← hpresent pair hmem, Option.map_map]
          rfl
    _ = (((record.schema.fields.zip record.slots).map Prod.fst).map FieldSpec.name).filter
        record.contains := by
          rw [← List.filterMap_eq_filter, List.filterMap_map, List.filterMap_map]
          rfl
    _ = _ := by rw [hzip]

theorem nodup_keys : record.keys.Nodup := by
  rw [h.keys_eq]
  refine List.nodup_append.2 ⟨h.nodup.filter _, h.nodup_extras, ?_⟩
  rintro key hkey _ hextra rfl
  obtain ⟨hposition, _⟩ := h.undeclared key hextra
  exact Schema.position?_eq_none_iff.1 hposition (List.mem_of_mem_filter hkey)

end IsShaped

/-! ## Calls -/

theorem map_fst_putExtra (name : String) (value : Value) (extras : List (String × Value)) :
    (putExtra name value extras).map Prod.fst =
      if name ∈ extras.map Prod.fst then extras.map Prod.fst
      else extras.map Prod.fst ++ [name] := by
  induction extras with
  | nil => rfl
  | cons extra extras ih =>
      obtain ⟨key, old⟩ := extra
      unfold putExtra
      by_cases hkey : key = name
      · simp [hkey]
      · rw [if_neg hkey, List.map_cons, ih, List.map_cons]
        by_cases hmem : name ∈ extras.map Prod.fst
        · rw [if_pos hmem, if_pos (List.mem_cons_of_mem _ hmem)]
        · rw [if_neg hmem, if_neg (by simpa [Ne.symm hkey] using hmem), List.cons_append]

theorem lookup_putExtra (name other : String) (value : Value) (extras : List (String × Value)) :
    (putExtra name value extras).lookup other =
      if other = name then some value else extras.lookup other := by
  simp only [Assoc.lookup_eq_get?]
  induction extras with
  | nil => simp [putExtra, Assoc.get?, eq_comm]
  | cons extra extras ih =>
      obtain ⟨key, old⟩ := extra
      unfold putExtra
      by_cases hkey : key = name
      · subst hkey
        by_cases hother : other = key <;> simp [Assoc.get?, hother, eq_comm]
      · rw [if_neg hkey, Assoc.get?, Assoc.get?, ih]
        by_cases hother : other = name <;> simp [hother, hkey]

theorem lookup_dropExtra {name : String} {extras : List (String × Value)}
    (h : (extras.map Prod.fst).Nodup) (other : String) :
    (dropExtra name extras).lookup other =
      if other = name then none else extras.lookup other := by
  simp only [Assoc.lookup_eq_get?]
  induction extras with
  | nil => simp [dropExtra, Assoc.get?]
  | cons extra extras ih =>
      obtain ⟨key, old⟩ := extra
      obtain ⟨hhead, hrest⟩ := List.nodup_cons.1 h
      unfold dropExtra
      by_cases hkey : key = name
      · subst hkey
        rw [if_pos rfl, Assoc.get?]
        by_cases hother : other = key
        · simp [hother, Assoc.get?_eq_none_of_not_mem hhead]
        · simp [hother, Ne.symm hother]
      · rw [if_neg hkey, Assoc.get?, Assoc.get?, ih hrest]
        by_cases hother : other = name <;> simp [hother, hkey]

section Frame

variable {record : Record} {name other : String}

theorem get?_set_slot_self (h : record.IsShaped) {position : Nat}
    (hposition : record.schema.position? name = some position) (slot : Slot) :
    { record with slots := record.slots.set position slot }.get? name = .ok slot.value? := by
  simp [get?, hposition, slotValue?, List.getElem?_set_self (h.lt_length hposition)]

theorem get?_set_slot_of_ne {position : Nat}
    (hposition : record.schema.position? name = some position) (slot : Slot)
    (hother : other ≠ name) :
    { record with slots := record.slots.set position slot }.get? other = record.get? other := by
  unfold get?
  cases hfound : record.schema.position? other with
  | none => rfl
  | some found =>
      have hne : position ≠ found := by
        rintro rfl
        obtain ⟨field, hfield, hname⟩ := Schema.position?_eq_some hposition
        obtain ⟨_, hfield', hother'⟩ := Schema.position?_eq_some hfound
        obtain rfl := Option.some.inj (hfield.symm.trans hfield')
        exact hother (hother'.symm.trans hname)
      simp [slotValue?, List.getElem?_set_ne hne]

theorem get?_extras {extras : List (String × Value)}
    (h : extras.lookup other = record.extras.lookup other) :
    { record with extras }.get? other = record.get? other := by
  simp only [get?, h]
  rfl

theorem IsShaped.set_slot (h : record.IsShaped) (position : Nat) (slot : Slot) :
    { record with slots := record.slots.set position slot }.IsShaped :=
  { h with length_slots := by simpa using h.length_slots }

end Frame

namespace IsShaped

variable {record after : Record} {name : String} {value : Value} {previous : Option Value}

theorem set (h : record.IsShaped) (hset : record.set name value = .ok after) :
    after.IsShaped := by
  obtain ⟨position, field, accepted, _, _, _, rfl⟩ | ⟨hposition, hopen, _, rfl⟩ := set_cases hset
  · exact h.set_slot position _
  · refine { h with
      nodup_extras := nodup_putExtra h.nodup_extras
      undeclared := fun key hkey => ?_ }
    rcases mem_putExtra hkey with rfl | hkey
    · exact ⟨hposition, hopen⟩
    · exact h.undeclared key hkey

theorem remove (h : record.IsShaped) (hremove : record.remove name = .ok (previous, after)) :
    after.IsShaped := by
  obtain ⟨position, _, _, rfl⟩ | ⟨_, _, _, rfl⟩ := remove_cases hremove
  · exact h.set_slot position _
  · exact { h with
      nodup_extras := h.nodup_extras.sublist ((dropExtra_sublist name record.extras).map Prod.fst)
      undeclared := fun key hkey => h.undeclared key (mem_dropExtra hkey) }

/-- A value is held as it was widened, in the slot of its field or among the other fields. -/
theorem set_cases_widen (h : record.IsShaped) (hset : record.set name value = .ok after) :
    (∃ position field, record.schema.position? name = some position ∧
      record.schema.fields[position]? = some field ∧ record.schema.field? name = some field ∧
      after = { record with
        slots := record.slots.set position (.held (field.type.widen value)) }) ∨
    (record.schema.position? name = none ∧ record.schema.field? name = none ∧
      record.schema.isOpen = true ∧
      after = { record with extras := putExtra name value record.extras }) := by
  obtain ⟨position, field, accepted, hposition, hfield, haccepted, rfl⟩ |
    ⟨hposition, hopen, _, rfl⟩ := set_cases hset
  · have hfound : record.schema.field? name = some field := by
      obtain ⟨_, hfield', rfl⟩ := Schema.position?_eq_some hposition
      obtain rfl := Option.some.inj (hfield.symm.trans hfield')
      exact (Schema.find_of_nodup h.nodup hfield).2
    have hwidened : accepted = field.type.widen value := by
      unfold FieldSpec.accept at haccepted
      split at haccepted
      · simp at haccepted
      · exact field.type.eq_widen_of_check haccepted
    exact .inl ⟨position, field, hposition, hfield, hfound, by rw [hwidened]⟩
  · have hfound : record.schema.field? name = none := by
      rw [Schema.position?, List.findIdx?_eq_none_iff] at hposition
      exact List.find?_eq_none.2 fun field hmem => by simpa using hposition field hmem
    exact .inr ⟨hposition, hfound, hopen, rfl⟩

/-- A value that was put into a field is read back as it is held, and other fields are read as
before. -/
theorem get?_of_set (h : record.IsShaped) (hset : record.set name value = .ok after) :
    after.get? name = .ok (some (record.schema.widen name value)) ∧
      ∀ other, other ≠ name → after.get? other = record.get? other := by
  obtain ⟨position, field, hposition, _, hfound, rfl⟩ | ⟨hposition, hfound, hopen, rfl⟩ :=
    h.set_cases_widen hset
  · refine ⟨?_, fun other hother => get?_set_slot_of_ne hposition _ hother⟩
    rw [get?_set_slot_self h hposition, Schema.widen, hfound]
    rfl
  · refine ⟨?_, fun other hother => get?_extras ?_⟩
    · simp [get?, hposition, hopen, lookup_putExtra, Schema.widen, hfound]
    · rw [lookup_putExtra, if_neg hother]

theorem get?_of_remove (h : record.IsShaped)
    (hremove : record.remove name = .ok (previous, after)) :
    record.get? name = .ok previous ∧ after.get? name = .ok none ∧
      ∀ other, other ≠ name → after.get? other = record.get? other := by
  obtain ⟨position, hposition, rfl, rfl⟩ | ⟨hposition, hopen, rfl, rfl⟩ := remove_cases hremove
  · exact ⟨by simp [get?, hposition], get?_set_slot_self h hposition _,
      fun other hother => get?_set_slot_of_ne hposition _ hother⟩
  · refine ⟨by simp [get?, hposition, hopen], ?_, fun other hother => get?_extras ?_⟩
    · simp [get?, hposition, hopen, lookup_dropExtra h.nodup_extras]
    · rw [lookup_dropExtra h.nodup_extras, if_neg hother]

end IsShaped

end Record

end DocGraph
