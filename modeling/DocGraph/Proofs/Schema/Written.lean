import DocGraph.Proofs.Schema.RoundTrip
import Mathlib.Data.List.Forall2
/-!
# What is written for a record

A record is written by filing members under the names of its fields, over members that were there
before.  So it can be told from each name where its member comes from, and from each field what is
found under its name.
-/

namespace DocGraph

open Outcome

variable [CustomCodecs]

/-! ## Filing -/

theorem dumpSlots_eq_insertAll {fields : List FieldSpec} {slots : List Slot}
    {members written : Json.Members} (h : dumpSlots fields slots members = .ok written) :
    ∃ news, (∀ key ∈ news.map Prod.fst, key ∈ fields.map FieldSpec.name) ∧
      ∀ others, dumpSlots fields slots others = .ok (Assoc.insertAll news others) := by
  induction slots generalizing fields members with
  | nil => cases fields <;> exact ⟨[], by simp, fun _ => rfl⟩
  | cons slot slots ih =>
      cases fields with
      | nil => exact ⟨[], by simp, fun _ => rfl⟩
      | cons field fields =>
          obtain ⟨json?, hslot, h⟩ := bind_eq_ok_iff.1 h
          cases json? with
          | none =>
              obtain ⟨news, hkeys, hnews⟩ := ih h
              refine ⟨news, fun key hkey => List.mem_cons_of_mem _ (hkeys key hkey), ?_⟩
              intro others
              simp only [dumpSlots, hslot, ok_bind, hnews]
          | some json =>
              obtain ⟨news, hkeys, hnews⟩ := ih h
              refine ⟨(field.name, json) :: news, ?_, fun others => ?_⟩
              · intro key hkey
                rcases List.mem_cons.1 hkey with rfl | hkey
                · exact List.mem_cons_self
                · exact List.mem_cons_of_mem _ (hkeys key hkey)
              · simp only [dumpSlots, hslot, ok_bind, hnews]
                rfl

theorem dumpExtras_eq_insertAll {extras : List (String × Value)} {members written : Json.Members}
    (h : dumpExtras extras members = .ok written) :
    ∃ news, news.map Prod.fst = extras.map Prod.fst ∧
      ∀ others, dumpExtras extras others = .ok (Assoc.insertAll news others) := by
  induction extras generalizing members with
  | nil => exact ⟨[], rfl, fun _ => rfl⟩
  | cons extra extras ih =>
      obtain ⟨key, value⟩ := extra
      obtain ⟨json, hjson, h⟩ := bind_eq_ok_iff.1 h
      obtain ⟨news, hkeys, hnews⟩ := ih h
      refine ⟨(key, json) :: news, by simp [hkeys], fun others => ?_⟩
      simp only [dumpExtras, hjson, ok_bind, hnews]
      rfl

theorem Schema.dumpRecord_eq_insertAll {schema : Schema} {record : Record}
    {members written : Json.Members} (h : schema.dumpRecord record members = .ok written) :
    ∃ news, (∀ key ∈ news.map Prod.fst,
        key ∈ schema.fields.map FieldSpec.name ∨ key ∈ record.extras.map Prod.fst) ∧
      ∀ others, schema.dumpRecord record others = .ok (Assoc.insertAll news others) := by
  obtain ⟨fields, hfields, h⟩ := bind_eq_ok_iff.1 h
  obtain ⟨declared, hdeclared, hslots⟩ := dumpSlots_eq_insertAll hfields
  obtain ⟨added, hadded, hextras⟩ := dumpExtras_eq_insertAll h
  refine ⟨declared ++ added, fun key hkey => ?_, fun others => ?_⟩
  · rw [List.map_append, hadded] at hkey
    exact (List.mem_append.1 hkey).imp_left (hdeclared key)
  · simp only [dumpRecord, hslots, ok_bind, hextras, Assoc.insertAll, List.foldl_append]

/-! ## Where a member comes from -/

theorem get?_of_dumpSlots {fields : List FieldSpec} {slots : List Slot}
    {members written : Json.Members} (h : dumpSlots fields slots members = .ok written)
    {name : String} (hname : name ∉ fields.map FieldSpec.name) :
    Assoc.get? name written = Assoc.get? name members := by
  obtain ⟨news, hkeys, hnews⟩ := dumpSlots_eq_insertAll h
  obtain rfl := Except.ok.inj ((hnews members).symm.trans h)
  exact Assoc.get?_insertAll_of_not_mem (mt (hkeys name) hname)

theorem get?_of_dumpExtras {extras : List (String × Value)} {members written : Json.Members}
    (h : dumpExtras extras members = .ok written) {name : String}
    (hname : name ∉ extras.map Prod.fst) :
    Assoc.get? name written = Assoc.get? name members := by
  obtain ⟨news, hkeys, hnews⟩ := dumpExtras_eq_insertAll h
  obtain rfl := Except.ok.inj ((hnews members).symm.trans h)
  exact Assoc.get?_insertAll_of_not_mem (hkeys ▸ hname)

theorem get?_of_dumpSlots_at {fields : List FieldSpec} {slots : List Slot}
    {members written : Json.Members} (h : dumpSlots fields slots members = .ok written)
    (hnodup : (fields.map FieldSpec.name).Nodup) {position : Nat} {field : FieldSpec} {slot : Slot}
    (hfield : fields[position]? = some field) (hslot : slots[position]? = some slot) :
    ∃ json?, slot.dump field = .ok json? ∧
      Assoc.get? field.name written = json?.or (Assoc.get? field.name members) := by
  induction slots generalizing fields members position with
  | nil => simp at hslot
  | cons head slots ih =>
      cases fields with
      | nil => simp at hfield
      | cons first fields =>
          obtain ⟨hfirst, hnodup⟩ := List.nodup_cons.1 hnodup
          obtain ⟨json?, hhead, h⟩ := bind_eq_ok_iff.1 h
          cases position with
          | zero =>
              obtain rfl := Option.some.inj hfield
              obtain rfl := Option.some.inj hslot
              refine ⟨json?, hhead, ?_⟩
              cases json? with
              | none => exact get?_of_dumpSlots h hfirst
              | some json =>
                  exact (get?_of_dumpSlots h hfirst).trans (Assoc.get?_insert_self _ _ _)
          | succ position =>
              have hmem : field.name ∈ fields.map FieldSpec.name :=
                List.mem_map_of_mem (List.mem_of_getElem? hfield)
              have hne : first.name ≠ field.name := fun heq => hfirst (heq ▸ hmem)
              cases json? with
              | none => exact ih h hnodup hfield hslot
              | some json =>
                  obtain ⟨json?, hdump, hget⟩ := ih h hnodup hfield hslot
                  rw [Assoc.get?_insert_of_ne hne] at hget
                  exact ⟨json?, hdump, hget⟩

theorem dump_of_dumpSlots {fields : List FieldSpec} {slots : List Slot}
    {members written : Json.Members} (h : dumpSlots fields slots members = .ok written)
    (hlength : fields.length = slots.length) (hnodup : (fields.map FieldSpec.name).Nodup)
    (hmembers : ∀ field ∈ fields, Assoc.get? field.name members = none) :
    List.Forall₂ (fun field slot => slot.dump field = .ok (Assoc.get? field.name written))
      fields slots := by
  refine List.forall₂_iff_get.2 ⟨hlength, fun position hfield hslot => ?_⟩
  obtain ⟨json?, hdump, hget⟩ := get?_of_dumpSlots_at h hnodup
    (List.getElem?_eq_getElem hfield) (List.getElem?_eq_getElem hslot)
  rw [hmembers _ (List.getElem_mem hfield), Option.or_none] at hget
  exact hdump.trans (congrArg Except.ok hget.symm)

theorem dump_held {field : FieldSpec} {value : Value} {json? : Option Json}
    (h : (Slot.held value).dump field = .ok json?) :
    (json? = none ∧ (field.omitsDefault && field.isDefault value) = true) ∨
      ∃ json, json? = some json ∧ field.encode value = .ok json := by
  rw [Slot.dump] at h
  split at h
  · rename_i homits
    exact Or.inl ⟨(Except.ok.inj h).symm, homits⟩
  · obtain ⟨json, hjson, h⟩ := bind_eq_ok_iff.1 h
    exact Or.inr ⟨json, (Except.ok.inj h).symm, hjson⟩

theorem dump_eq_some {field : FieldSpec} {slot : Slot} {json : Json}
    (h : slot.dump field = .ok (some json)) :
    ∃ value, slot = .held value ∧ field.encode value = .ok json := by
  cases slot with
  | absent =>
      rw [Slot.dump] at h
      split at h <;> simp at h
  | defaulted value => simp [Slot.dump] at h
  | held value =>
      rcases dump_held h with ⟨hnone, _⟩ | ⟨other, hother, hencode⟩
      · simp at hnone
      · exact ⟨value, rfl, Option.some.inj hother ▸ hencode⟩

theorem held_of_dumpSlots {fields : List FieldSpec} {slots : List Slot}
    {members written : Json.Members} (h : dumpSlots fields slots members = .ok written)
    {name : String} {json : Json} (hwritten : Assoc.get? name written = some json) :
    Assoc.get? name members = some json ∨
      ∃ (position : Nat) (field : FieldSpec) (value : Value), fields[position]? = some field ∧
        slots[position]? = some (.held value) ∧ field.name = name ∧
        field.encode value = .ok json := by
  induction slots generalizing fields members with
  | nil =>
      cases fields <;> exact Or.inl (Except.ok.inj h ▸ hwritten)
  | cons slot slots ih =>
      cases fields with
      | nil => exact Or.inl (Except.ok.inj h ▸ hwritten)
      | cons field fields =>
          obtain ⟨json?, hslot, h⟩ := bind_eq_ok_iff.1 h
          cases json? with
          | none =>
              rcases ih h with hmembers | ⟨position, hposition⟩
              · exact Or.inl hmembers
              · exact Or.inr ⟨position + 1, hposition⟩
          | some head =>
              rcases ih h with hmembers | ⟨position, hposition⟩
              · rw [Assoc.get?_insert] at hmembers
                split at hmembers
                · rename_i hname
                  obtain ⟨value, rfl, hencode⟩ := dump_eq_some hslot
                  obtain rfl := Option.some.inj hmembers
                  exact Or.inr ⟨0, field, value, rfl, rfl, hname, hencode⟩
                · exact Or.inl hmembers
              · exact Or.inr ⟨position + 1, hposition⟩

theorem get?_of_dumpExtras_lookup {extras : List (String × Value)} {members written : Json.Members}
    (h : dumpExtras extras members = .ok written) (hnodup : (extras.map Prod.fst).Nodup)
    {name : String} {value : Value} (hvalue : extras.lookup name = some value) :
    ∃ json, value.toJson name = .ok json ∧ Assoc.get? name written = some json := by
  induction extras generalizing members with
  | nil => simp at hvalue
  | cons extra extras ih =>
      obtain ⟨key, first⟩ := extra
      obtain ⟨hkey, hnodup⟩ := List.nodup_cons.1 hnodup
      obtain ⟨json, hjson, h⟩ := bind_eq_ok_iff.1 h
      rw [Assoc.lookup_eq_get?, Assoc.get?] at hvalue
      split at hvalue
      · rename_i heq
        obtain rfl := Option.some.inj hvalue
        subst heq
        exact ⟨json, hjson, (get?_of_dumpExtras h hkey).trans (Assoc.get?_insert_self _ _ _)⟩
      · exact ih h hnodup (Assoc.lookup_eq_get? _ _ ▸ hvalue)

namespace Schema

theorem sorted_of_dumpRecord {schema : Schema} {record : Record} {members written : Json.Members}
    (h : schema.dumpRecord record members = .ok written) (hsorted : Assoc.Sorted members) :
    Assoc.Sorted written := by
  obtain ⟨news, _, hnews⟩ := dumpRecord_eq_insertAll h
  obtain rfl := Except.ok.inj ((hnews members).symm.trans h)
  exact Assoc.sorted_insertAll hsorted

theorem get?_of_dumpRecord {schema : Schema} {record : Record} {members written : Json.Members}
    (h : schema.dumpRecord record members = .ok written) {name : String}
    (hfields : name ∉ schema.fields.map FieldSpec.name)
    (hextras : name ∉ record.extras.map Prod.fst) :
    Assoc.get? name written = Assoc.get? name members := by
  obtain ⟨fields, hdump, h⟩ := bind_eq_ok_iff.1 h
  rw [get?_of_dumpExtras h hextras, get?_of_dumpSlots hdump hfields]

theorem mem_keys_of_dumpRecord {schema : Schema} {record : Record}
    {members written : Json.Members} (h : schema.dumpRecord record members = .ok written)
    {key : String} (hkey : key ∈ written.map Prod.fst) :
    (key ∈ schema.fields.map FieldSpec.name ∨ key ∈ record.extras.map Prod.fst) ∨
      key ∈ members.map Prod.fst := by
  obtain ⟨news, hkeys, hnews⟩ := dumpRecord_eq_insertAll h
  obtain rfl := Except.ok.inj ((hnews members).symm.trans h)
  exact (Assoc.mem_keys_of_insertAll hkey).imp_left (hkeys key)

theorem dump_of_dumpRecord {schema : Schema} {record : Record} {members written : Json.Members}
    (h : schema.dumpRecord record members = .ok written)
    (hlength : schema.fields.length = record.slots.length)
    (hnodup : (schema.fields.map FieldSpec.name).Nodup)
    (hextras : ∀ key ∈ record.extras.map Prod.fst, key ∉ schema.fields.map FieldSpec.name)
    (hmembers : ∀ key ∈ schema.fields.map FieldSpec.name, Assoc.get? key members = none) :
    List.Forall₂ (fun field slot => slot.dump field = .ok (Assoc.get? field.name written))
      schema.fields record.slots := by
  obtain ⟨fields, hfields, h⟩ := bind_eq_ok_iff.1 h
  have hslots := dump_of_dumpSlots hfields hlength hnodup fun field hmem =>
    hmembers field.name (List.mem_map_of_mem hmem)
  have hsame : ∀ field ∈ schema.fields,
      Assoc.get? field.name written = Assoc.get? field.name fields := fun field hmem =>
    get?_of_dumpExtras h fun hextra => hextras field.name hextra (List.mem_map_of_mem hmem)
  refine List.Forall₂.imp ?_ ((List.forall₂_and_left _ _).2 ⟨hsame, hslots⟩)
  rintro field slot ⟨hget, hslot⟩
  rw [hget, hslot]

end Schema

end DocGraph
