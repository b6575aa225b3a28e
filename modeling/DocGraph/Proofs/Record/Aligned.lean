import DocGraph.Proofs.Record.Made
import DocGraph.Proofs.Schema.Written
/-!
# Records written through another schema

A record is written through a schema by pairing its slots with the fields of this schema in order,
while its values are read by the names of its own schema.  The two go together as long as each
value stands at the place of a field of the same name.
-/

namespace DocGraph

open Outcome

namespace Schema

/-- Every value that a record holds of its own stands at the place of a field of the same name. -/
def Aligned (schema : Schema) (record : Record) : Prop :=
  ∀ (position : Nat) (value : Value), record.slots[position]? = some (.held value) →
    (schema.fields[position]?).map FieldSpec.name =
      (record.schema.fields[position]?).map FieldSpec.name

/-- What a value of a record is written as: by the field of its name, or plainly when it was added
under a name that its schema does not declare. -/
def encodeNamed [CustomCodecs] (schema : Schema) (record : Record) (name : String) (value : Value) :
    Except Error Json :=
  match record.schema.position? name, schema.field? name with
  | some _, some field => field.encode value
  | _, _ => value.toJson name

def omitsNamed (schema : Schema) (record : Record) (name : String) (value : Value) : Bool :=
  match record.schema.position? name, schema.field? name with
  | some _, some field => field.omitsDefault && field.isDefault value
  | _, _ => false

end Schema

def Record.isDefaulted (record : Record) (name : String) : Bool :=
  match (record.schema.position? name).bind fun position => record.slots[position]? with
  | some (.defaulted _) => true
  | _ => false

/-! ## Fields by name -/

namespace Schema

variable {schema : Schema} {name : String}

theorem position?_eq_some {position : Nat} (h : schema.position? name = some position) :
    ∃ field, schema.fields[position]? = some field ∧ field.name = name := by
  obtain ⟨hlt, hname, _⟩ := List.findIdx?_eq_some_iff_getElem.1 h
  exact ⟨_, List.getElem?_eq_getElem hlt, by simpa using hname⟩

/-- Where names differ, the field at a position is the one that is found by its name. -/
theorem find_of_nodup (hnodup : (schema.fields.map FieldSpec.name).Nodup) {position : Nat}
    {field : FieldSpec} (hfield : schema.fields[position]? = some field) :
    schema.position? field.name = some position ∧ schema.field? field.name = some field := by
  obtain ⟨hlt, rfl⟩ := List.getElem?_eq_some_iff.1 hfield
  have hearlier : ∀ (earlier : Nat) (h : earlier < position),
      (schema.fields[earlier].name == schema.fields[position].name) = false := by
    intro earlier h
    simpa using List.pairwise_iff_getElem.1 (List.pairwise_map.1 hnodup) earlier position _ hlt h
  exact ⟨List.findIdx?_eq_some_iff_getElem.2 ⟨hlt, by simp, fun j hj => by simp [hearlier j hj]⟩,
    List.find?_eq_some_iff_getElem.2
      ⟨by simp, position, hlt, rfl, fun j hj => by simp [hearlier j hj]⟩⟩

/-! ## Records that are aligned -/

variable {record : Record} {members written : Json.Members}

theorem Aligned.exists_field (haligned : schema.Aligned record) {position : Nat} {value : Value}
    (hslot : record.slots[position]? = some (.held value)) {own : FieldSpec}
    (hown : record.schema.fields[position]? = some own) :
    ∃ field, schema.fields[position]? = some field ∧ field.name = own.name := by
  have hname := haligned position value hslot
  rw [hown, Option.map_some] at hname
  exact Option.map_eq_some_iff.1 hname

theorem Aligned.exists_own (haligned : schema.Aligned record) {position : Nat} {value : Value}
    (hslot : record.slots[position]? = some (.held value)) {field : FieldSpec}
    (hfield : schema.fields[position]? = some field) :
    ∃ own, record.schema.fields[position]? = some own ∧ own.name = field.name := by
  have hname := haligned position value hslot
  rw [hfield, Option.map_some] at hname
  exact Option.map_eq_some_iff.1 hname.symm

variable [CustomCodecs]

/-- What is written beside the members that were there is a value of the record, written as the
value of its name. -/
theorem value_of_dumpRecord (hnodup : (schema.fields.map FieldSpec.name).Nodup)
    (hrecord : record.Keeps) (haligned : schema.Aligned record)
    (h : schema.dumpRecord record members = .ok written) {name : String} {json : Json}
    (hmembers : Assoc.get? name members = none) (hwritten : Assoc.get? name written = some json) :
    ∃ value, record.get? name = .ok (some value) ∧
      schema.encodeNamed record name value = .ok json := by
  obtain ⟨declared, hslots, hextras⟩ := bind_eq_ok_iff.1 h
  cases hlookup : record.extras.lookup name with
  | some value =>
      have hkey : name ∈ record.extras.map Prod.fst := by
        rw [Assoc.lookup_eq_get?] at hlookup
        exact List.mem_map_of_mem (Assoc.mem_of_get?_eq_some hlookup)
      obtain ⟨_, hundeclared, hopen⟩ := hrecord.extras name hkey
      have hposition := position?_eq_none_iff.2 hundeclared
      obtain ⟨other, hjson, hget⟩ := get?_of_dumpExtras_lookup hextras hrecord.nodup hlookup
      obtain rfl := Option.some.inj (hwritten.symm.trans hget)
      refine ⟨value, ?_, ?_⟩
      · simp [Record.get?, hposition, hopen, hlookup]
      · simp [encodeNamed, hposition, hjson]
  | none =>
      have hkey : name ∉ record.extras.map Prod.fst := by
        intro hmem
        obtain ⟨⟨key, value⟩, hextra, rfl⟩ := List.mem_map.1 hmem
        rw [Assoc.lookup_eq_get?, Assoc.get?_eq_some_of_mem hrecord.nodup hextra] at hlookup
        simp at hlookup
      rw [get?_of_dumpExtras hextras hkey] at hwritten
      rcases held_of_dumpSlots hslots hwritten with hthere | hheld
      · simp [hmembers] at hthere
      · obtain ⟨position, field, value, hfield, hslot, rfl, hencode⟩ := hheld
        obtain ⟨own, hown, hname⟩ := haligned.exists_own hslot hfield
        obtain ⟨hposition, _⟩ := find_of_nodup (nodup_of_build hrecord.made.built) hown
        obtain ⟨_, hfound⟩ := find_of_nodup hnodup hfield
        rw [hname] at hposition
        refine ⟨value, ?_, ?_⟩
        · simp [Record.get?, hposition, Record.slotValue?, hslot, Slot.value?]
        · simp [encodeNamed, hposition, hfound, hencode]

/-- Every value of the record is written, unless it stands in for a missing field or is a default
that is left out. -/
theorem written_of_dumpRecord (hnodup : (schema.fields.map FieldSpec.name).Nodup)
    (hrecord : record.Keeps) (haligned : schema.Aligned record)
    (h : schema.dumpRecord record members = .ok written) {name : String} {value : Value}
    (hvalue : record.get? name = .ok (some value)) (hdefaulted : record.isDefaulted name = false)
    (homits : schema.omitsNamed record name value = false) :
    ∃ json, schema.encodeNamed record name value = .ok json ∧
      Assoc.get? name written = some json := by
  obtain ⟨declared, hslots, hextras⟩ := bind_eq_ok_iff.1 h
  unfold Record.get? at hvalue
  cases hposition : record.schema.position? name with
  | none =>
      rw [hposition] at hvalue
      dsimp only at hvalue
      split at hvalue
      · obtain ⟨json, hjson, hget⟩ :=
          get?_of_dumpExtras_lookup hextras hrecord.nodup (Except.ok.inj hvalue)
        exact ⟨json, by simp [encodeNamed, hposition, hjson], hget⟩
      · simp [Record.unknown] at hvalue
  | some position =>
      rw [hposition] at hvalue
      obtain ⟨own, hown, rfl⟩ := position?_eq_some hposition
      obtain ⟨slot, hslot, hheld⟩ := Option.bind_eq_some_iff.1 (Except.ok.inj hvalue)
      have hheld : slot = .held value := by
        cases slot with
        | absent => simp [Slot.value?] at hheld
        | defaulted other => simp [Record.isDefaulted, hposition, hslot] at hdefaulted
        | held other => simpa [Slot.value?] using hheld
      subst hheld
      obtain ⟨field, hfield, hname⟩ := haligned.exists_field hslot hown
      obtain ⟨_, hfound⟩ := find_of_nodup hnodup hfield
      rw [hname] at hfound
      obtain ⟨json?, hdump, hget⟩ := get?_of_dumpSlots_at hslots hnodup hfield hslot
      have hkey : own.name ∉ record.extras.map Prod.fst := fun hmem =>
        (hrecord.extras own.name hmem).2.1 (List.mem_map_of_mem (List.mem_of_getElem? hown))
      rcases dump_held hdump with ⟨_, homitted⟩ | ⟨json, rfl, hencode⟩
      · simp [omitsNamed, hposition, hfound, homitted] at homits
      · refine ⟨json, by simp [encodeNamed, hposition, hfound, hencode], ?_⟩
        rw [get?_of_dumpExtras hextras hkey, ← hname, hget]
        rfl

end Schema

end DocGraph
