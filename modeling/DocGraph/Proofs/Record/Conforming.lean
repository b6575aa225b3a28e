import DocGraph.Proofs.Record.Shape
/-!
# Records within records

A field of nested records holds records of a schema of the right name, unless a codec or a factory
has brought them there.  Where this is the schema that is nested, they hold what its fields would
take, and so do the records within them, at any depth; the values that a codec has read or a factory
has made, and reserved attributes that a part of a document does not tell from others, are the only
ones that a field of their type would refuse.
-/

namespace DocGraph

open Outcome

/-! ## Accepted values -/

theorem FieldType.exists_check_primitive_iff {kind : Primitive} {field : String} {value : Value} :
    (∃ accepted, (FieldType.primitive kind).check field value = .ok accepted) ↔
      (FieldType.primitive kind).Fits value := by
  cases kind <;> cases value <;> simp [FieldType.check, Fits, Primitive.Fits]

theorem FieldType.exists_check_iff : ∀ (type : FieldType) {field : String} {value : Value},
    (∃ accepted, type.check field value = .ok accepted) ↔ type.Fits value
  | .primitive _, _, _ => FieldType.exists_check_primitive_iff
  | .nested schema, _, value => by
      cases value with
      | object record =>
          simp only [FieldType.check, Fits]
          split <;> simp_all
      | _ => simp [FieldType.check, Fits]
  | .listOf item, field, value => by
      cases value with
      | list values =>
          simp only [Fits]
          constructor
          · rintro ⟨accepted, h⟩ value hmem
            obtain ⟨checked, hchecked, _⟩ := bind_eq_ok_iff.1 h
            obtain ⟨result, _, hresult⟩ := exists_result_of_mapM hchecked value hmem
            exact (FieldType.exists_check_iff item).1 ⟨result, hresult⟩
          · intro h
            have hitem : ∀ value ∈ values, ∃ checked, item.check field value = .ok checked :=
              fun value hmem => (FieldType.exists_check_iff item).2 (h value hmem)
            obtain ⟨checked, hchecked⟩ := exists_mapM_eq_ok hitem
            exact ⟨.list checked, by simp [FieldType.check, hchecked]⟩
      | _ => simp [FieldType.check, Fits]
termination_by structural type => type

theorem FieldSpec.exists_accept_iff {field : FieldSpec} {value : Value} :
    (∃ accepted, field.accept value = .ok accepted) ↔ field.Takes value := by
  unfold FieldSpec.accept Takes
  split
  · rename_i hnull
    simp [hnull.1, hnull.2]
  · rename_i hnull
    rw [FieldType.exists_check_iff, iff_and_self]
    exact fun _ hrequired => Bool.of_not_eq_true fun hvalue => hnull ⟨hvalue, hrequired⟩

/-! ## What stands in the fields -/

namespace Record

/-- Under reserved names a record holds only what it was loaded with. -/
def HasLoadedReserved (record : Record) : Prop :=
  ∀ key value, record.extras.lookup key = some value → key ∈ Schema.reservedAttributes →
    ∃ raw, value = .json raw

theorem hasLoadedReserved_set {record after : Record} {name : String} {value : Value}
    (h : record.HasLoadedReserved) (hset : record.set name value = .ok after) :
    after.HasLoadedReserved := by
  obtain ⟨position, field, accepted, _, _, _, rfl⟩ | ⟨_, _, hplain, rfl⟩ := set_cases hset
  · exact h
  · intro key held hheld hreserved
    have hne : key ≠ name := fun heq => hplain (heq ▸ hreserved)
    rw [lookup_putExtra, if_neg hne] at hheld
    exact h key held hheld hreserved

theorem hasLoadedReserved_remove {record after : Record} {name : String}
    {previous : Option Value} (h : record.HasLoadedReserved)
    (hnodup : (record.extras.map Prod.fst).Nodup)
    (hremove : record.remove name = .ok (previous, after)) : after.HasLoadedReserved := by
  obtain ⟨position, _, _, rfl⟩ | ⟨_, _, _, rfl⟩ := remove_cases hremove
  · exact h
  · intro key held hheld hreserved
    rw [lookup_dropExtra hnodup] at hheld
    split at hheld
    · simp at hheld
    · exact h key held hheld hreserved

theorem IsShaped.exists_slot {record : Record} {name : String} {value : Value}
    (h : record.IsShaped) (hmem : (name, value) ∈ record.entries)
    {field : FieldSpec} (hfield : record.schema.field? name = some field) :
    ∃ slot, (field, slot) ∈ record.schema.fields.zip record.slots ∧ slot.value? = some value := by
  have hposition : record.schema.position? name ≠ none := by
    rw [ne_eq, Schema.position?_eq_none_iff, ← Schema.field?_eq_none_iff, hfield]
    simp
  obtain ⟨position, hposition⟩ := Option.ne_none_iff_exists'.1 hposition
  obtain ⟨found, slot, hpair, rfl⟩ := h.exists_mem_zip hposition
  obtain ⟨place, hplace⟩ := List.mem_iff_getElem?.1 (List.of_mem_zip hpair).1
  have hsame := (Schema.find_of_nodup h.nodup hplace).2
  obtain rfl := Option.some.inj (hsame.symm.trans hfield)
  have hget := h.get?_of_mem_zip hpair
  rw [h.get?_eq_some_iff.2 hmem] at hget
  exact ⟨slot, hpair, (Except.ok.inj hget).symm⟩

end Record

/-! ## Nested records -/

/-- Whether a value of a type holds a record where the type nests a schema. -/
inductive FieldType.Places : FieldType → Value → Schema → Record → Prop
  | nested {schema : Schema} {record : Record} :
    Places (.nested schema) (.object record) schema record
  | listOf {item : FieldType} {items : List Value} {value : Value} {schema : Schema}
    {record : Record} (hmem : value ∈ items) (h : Places item value schema record) :
    Places (.listOf item) (.list items) schema record

/-- Whether a record stands within another, at any depth, where the declaration of a field nests a
schema. -/
inductive Record.Nests (record : Record) : Schema → Record → Prop
  | self : Nests record record.schema record
  | field {place within : Schema} {inner part : Record} {name : String} {field : FieldSpec}
    {value : Value} (h : Nests record place inner) (hfield : inner.schema.field? name = some field)
    (hvalue : (name, value) ∈ inner.entries) (hplaces : field.type.Places value within part) :
    Nests record within part

theorem FieldType.Places.name_eq {type : FieldType} {value : Value} {schema : Schema}
    {record : Record} (h : type.Places value schema record) (hfits : type.Fits value) :
    record.schema.name = schema.name := by
  induction h with
  | nested => exact hfits
  | listOf hmem _ ih => exact ih (hfits _ hmem)

/-- A path of a type that does not end at its first name leads through a nested record. -/
theorem Schema.pathEnd?_nested_cases {schema : Schema} {name next : String} {rest : List String}
    {ending : PathEnd} (h : schema.pathEnd? (name :: next :: rest) = some ending)
    (htype : ending.type?.isSome = true) :
    ∃ outer inner, schema.field? name = some outer ∧ outer.type = .nested inner ∧
      inner.pathEnd? (next :: rest) = some ending := by
  rcases pathEnd?_cases h with ⟨_, hrest, _⟩ | ⟨_, rfl⟩ |
    ⟨outer, houter, ⟨hrest, _⟩ | ⟨inner, hinner, hend⟩ | ⟨_, rfl⟩⟩
  · simp at hrest
  · simp [PathEnd.type?] at htype
  · simp at hrest
  · exact ⟨outer, inner, houter, hinner, hend⟩
  · simp [PathEnd.type?] at htype

namespace Record

variable {record inner part : Record} {within : Schema}

/-- Whether every record within a record is of the very schema that is nested in its place. -/
def IsFaithful (record : Record) : Prop :=
  ∀ place inner, record.Nests place inner → inner.schema = place

theorem Nests.trans (h : record.Nests inner.schema inner) (hpart : inner.Nests within part) :
    record.Nests within part := by
  induction hpart with
  | self => exact h
  | field _ hfield hvalue hplaces ih => exact .field ih hfield hvalue hplaces

/-! ## Values at paths -/

def valueAt? : Record → List String → Option Value
  | _, [] => none
  | record, [name] =>
    match record.get? name with
    | .ok value? => value?
    | .error _ => none
  | record, name :: next :: rest =>
    match record.get? name with
    | .ok (some (.object inner)) => inner.valueAt? (next :: rest)
    | _ => none
termination_by structural _ path => path

theorem valueAt?_singleton_eq_some {name : String} {value : Value} (h : record.IsShaped)
    (hvalue : record.valueAt? [name] = some value) : (name, value) ∈ record.entries := by
  unfold valueAt? at hvalue
  split at hvalue
  · rename_i hget
    exact h.get?_eq_some_iff.1 (hvalue ▸ hget)
  · simp at hvalue

theorem valueAt?_cons_eq_some {name next : String} {rest : List String} {value : Value}
    (h : record.IsShaped) (hvalue : record.valueAt? (name :: next :: rest) = some value) :
    ∃ inner, (name, Value.object inner) ∈ record.entries ∧
      inner.valueAt? (next :: rest) = some value := by
  unfold valueAt? at hvalue
  split at hvalue
  · rename_i inner hget
    exact ⟨inner, h.get?_eq_some_iff.1 hget, hvalue⟩
  · simp at hvalue

end Record

/-! ## Lapses -/

section

variable [CustomCodecs]

namespace Record

theorem hasLoadedReserved_load {schema : Schema} {members : Json.Members} {record : Drawn Record}
    (hload : schema.loadRecord members = .ok record) (moment : Moment) :
    (record moment).HasLoadedReserved := by
  obtain ⟨slots, extras, _, hextras, rfl⟩ := Schema.loadRecord_cases hload
  intro key value hvalue _
  obtain rfl := Schema.loadExtras_eq hextras
  rw [Assoc.lookup_eq_get?] at hvalue
  obtain ⟨⟨_, raw⟩, _, heq⟩ := List.mem_map.1 (Assoc.mem_of_get?_eq_some hvalue)
  exact ⟨raw, (congrArg Prod.snd heq).symm⟩

theorem Made.hasLoadedReserved {record : Record} (h : record.Made) : record.HasLoadedReserved := by
  induction h with
  | new hschema moment => simp [HasLoadedReserved, Record.new]
  | load hschema hordered hcodecs hload moment => exact hasLoadedReserved_load hload moment
  | set h hvalue hset ih => exact hasLoadedReserved_set ih hset
  | remove h hremove ih => exact hasLoadedReserved_remove ih h.keeps.nodup hremove

theorem Keeps.isShaped {record : Record} (h : record.Keeps) : record.IsShaped where
  nodup := Schema.nodup_of_build h.made.built
  length_slots := h.slots.length_eq.symm
  nodup_extras := h.nodup
  undeclared key hkey :=
    ⟨Schema.position?_eq_none_iff.2 (h.extras key hkey).2.1, (h.extras key hkey).2.2⟩

variable {record : Record} {name : String} {value : Value}

theorem Made.mayHold (h : record.Made) (hmem : (name, value) ∈ record.entries)
    {field : FieldSpec} (hfield : record.schema.field? name = some field) :
    field.MayHold value := by
  obtain ⟨slot, hpair, hvalue⟩ := h.keeps.isShaped.exists_slot hmem hfield
  have hholds := List.forall₂_zip h.keeps.slots hpair
  cases slot with
  | absent => simp [Slot.value?] at hvalue
  | defaulted default =>
      obtain rfl := Option.some.inj hvalue
      exact hholds.2
  | held held =>
      obtain rfl := Option.some.inj hvalue
      exact hholds

/-- What no field is declared for was added to an open record. -/
theorem Made.lookup_extras (h : record.Made) (hmem : (name, value) ∈ record.entries)
    (hfield : record.schema.field? name = none) :
    record.schema.isOpen = true ∧ record.extras.lookup name = some value := by
  have hget := h.keeps.isShaped.get?_eq_some_iff.2 hmem
  rw [Schema.field?_eq_none_iff, ← Schema.position?_eq_none_iff] at hfield
  simp only [get?, hfield] at hget
  split at hget
  · rename_i hopen
    exact ⟨hopen, Except.ok.inj hget⟩
  · simp [unknown] at hget

end Record

/-- A value that stands under a name although the field of this name does not take it, as its codec
has read it or its factory has made it; or what an open part of a document holds under a reserved
name. -/
def Schema.Lapses (schema : Schema) (name : String) (value : Value) : Prop :=
  (∃ field, schema.field? name = some field ∧ (field.Reads value ∨ field.Draws value) ∧
    ¬field.Takes value) ∨
  (name ∈ Schema.reservedAttributes ∧ schema.kind = .embedded ∧ schema.isOpen = true ∧
    ∃ raw, value = .json raw)

theorem FieldSpec.MayHold.exists_accept_iff {schema : Schema} {name : String} {field : FieldSpec}
    {value : Value} (hbuilt : schema.build = .ok schema)
    (hfield : schema.field? name = some field) (h : field.MayHold value) :
    (∃ accepted, field.accept value = .ok accepted) ↔ ¬schema.Lapses name value := by
  have hplain := Schema.not_reserved_of_field? hbuilt hfield
  have hlapses : schema.Lapses name value ↔
      (field.Reads value ∨ field.Draws value) ∧ ¬field.Takes value := by
    simp [Schema.Lapses, hfield, hplain]
  rw [FieldSpec.exists_accept_iff, hlapses]
  exact ⟨fun htakes hlapse => hlapse.2 htakes,
    fun hnone => h.2.elim id fun hstrange => by_contra fun htakes => hnone ⟨hstrange, htakes⟩⟩

theorem FieldType.Places.made {type : FieldType} {value : Value} {schema : Schema}
    {record : Record} (h : type.Places value schema record) (hvalue : value.Made) :
    record.Made := by
  induction h with
  | nested => exact hvalue.record
  | listOf hmem _ ih => exact ih (hvalue.items _ hmem)

namespace Record

variable {record inner : Record} {place : Schema}

/-- A record that stands within one that was made was made itself. -/
theorem Nests.made (h : record.Nests place inner) (hmade : record.Made) : inner.Made := by
  induction h with
  | self => exact hmade
  | field _ hfield hvalue hplaces ih => exact hplaces.made (ih.mayHold hvalue hfield).1

/-- Whether a record stands within another in the place of a schema by a lapse. -/
def LapsesInto (record : Record) (place : Schema) (inner : Record) : Prop :=
  ∃ around outer name field value, record.Nests around outer ∧
    outer.schema.field? name = some field ∧ (name, value) ∈ outer.entries ∧
    field.type.Places value place inner ∧ outer.schema.Lapses name value

/-- A record within another is of a schema of the name of the one that is nested, if no lapse has
brought it there. -/
theorem Nests.name_eq (h : record.Nests place inner) (hmade : record.Made)
    (hlapse : ¬record.LapsesInto place inner) : inner.schema.name = place.name := by
  cases h with
  | self => rfl
  | field houter hfield hvalue hplaces =>
      have houterMade := houter.made hmade
      have haccepted := (houterMade.mayHold hvalue hfield).exists_accept_iff
        houterMade.keeps.made.built hfield
      have htakes := FieldSpec.exists_accept_iff.1 (haccepted.2 fun hlapses =>
        hlapse ⟨_, _, _, _, _, houter, hfield, hvalue, hplaces, hlapses⟩)
      exact hplaces.name_eq htakes.2

/-- What stands at a path that ends at a reserved attribute or a declared field stands under the
last name, in a record that is nested at the end of the path. -/
theorem Made.exists_nested_of_valueAt? (hmade : record.Made) (hfaithful : record.IsFaithful)
    {path : List String} {ending : PathEnd} (hend : record.schema.pathEnd? path = some ending)
    (htype : ending.type?.isSome = true) {value : Value}
    (hvalue : record.valueAt? path = some value) :
    ∃ part name, record.Nests part.schema part ∧ path.getLast? = some name ∧
      (name, value) ∈ part.entries ∧ part.schema.pathEnd? [name] = some ending := by
  induction path generalizing record with
  | nil => simp [valueAt?] at hvalue
  | cons name rest ih =>
      cases rest with
      | nil =>
          exact ⟨record, name, .self, rfl,
            valueAt?_singleton_eq_some hmade.keeps.isShaped hvalue, hend⟩
      | cons next rest =>
          obtain ⟨inner, hinner, hvalue⟩ :=
            valueAt?_cons_eq_some hmade.keeps.isShaped hvalue
          obtain ⟨outer, place, houter, hplace, hend⟩ :=
            Schema.pathEnd?_nested_cases hend htype
          have hnested : record.Nests place inner :=
            .field .self houter hinner (hplace ▸ .nested)
          obtain rfl := hfaithful place inner hnested
          have hinnerFaithful : inner.IsFaithful := fun within part hpart =>
            hfaithful within part (hnested.trans hpart)
          obtain ⟨part, last, hpart, hlast, hheld⟩ :=
            ih (hnested.made hmade) hinnerFaithful hend hvalue
          exact ⟨part, last, hnested.trans hpart, hlast, hheld⟩

/-- What stands under the last name of a path that a schema gives a type is of this type, unless it
is a lapse. -/
theorem Made.exists_check_of_pathEnd? (hmade : record.Made) {name : String} {ending : PathEnd}
    (hend : record.schema.pathEnd? [name] = some ending) {type : FieldType}
    (htype : ending.type? = some type) {value : Value} (hmem : (name, value) ∈ record.entries)
    (hlapse : ¬record.schema.Lapses name value) :
    ∃ accepted, type.check name value = .ok accepted := by
  have hbuilt := hmade.keeps.made.built
  cases ending with
  | untyped => simp [PathEnd.type?] at htype
  | declared field =>
      obtain rfl := Option.some.inj htype
      obtain ⟨outer, houter, ⟨_, rfl⟩ | ⟨_, _, hnone⟩⟩ := Schema.pathEnd?_declared_cases hend
      · have htakes := FieldSpec.exists_accept_iff.1
          (((hmade.mayHold hmem houter).exists_accept_iff hbuilt houter).2 hlapse)
        exact (FieldType.exists_check_iff _).2 htakes.2
      · simp [Schema.pathEnd?] at hnone
  | reserved =>
      have hreserved := (Schema.pathEnd?_reserved_cases hend).1
      have hfield : record.schema.field? name = none :=
        Option.eq_none_iff_forall_ne_some.2 fun field hfield =>
          Schema.not_reserved_of_field? hbuilt hfield hreserved
      obtain ⟨hopen, hlookup⟩ := hmade.lookup_extras hmem hfield
      obtain ⟨raw, rfl⟩ := hmade.hasLoadedReserved name value hlookup hreserved
      -- Only a part of a document holds reserved names, as other records do not keep them.
      have hkey : name ∈ record.extras.map Prod.fst :=
        List.mem_map_of_mem (Assoc.mem_of_get?_eq_some (Assoc.lookup_eq_get? _ _ ▸ hlookup))
      have hkind : record.schema.kind = .embedded := by
        simpa [Schema.isIdentity, hreserved] using (hmade.keeps.extras name hkey).1
      exact absurd (.inr ⟨hreserved, hkind, hopen, raw, rfl⟩) hlapse

/-- A record that stands within another is of a schema of the name that is nested, unless a lapse
has brought it there.  If it is of this very schema, it holds what the fields of the schema take,
and below it paths lead to values of their types, except for lapses. -/
theorem nested_conforms (hmade : record.Made) (hnested : record.Nests place inner) :
    (inner.schema.name = place.name ∨ record.LapsesInto place inner) ∧
    (inner.schema = place →
      (∀ name value, (name, value) ∈ inner.entries →
        (∃ field, place.field? name = some field ∧
          ((∃ accepted, field.accept value = .ok accepted) ↔ ¬place.Lapses name value)) ∨
        (place.field? name = none ∧ place.isOpen = true)) ∧
      (inner.IsFaithful → ∀ path type value, place.resolvePath path = .ok (some type) →
        inner.valueAt? path = some value →
        ∃ part name, inner.Nests part.schema part ∧ path.getLast? = some name ∧
          (name, value) ∈ part.entries ∧
          (part.schema.Lapses name value ∨
            ∃ accepted, type.check name value = .ok accepted))) := by
  have hinner := hnested.made hmade
  refine ⟨or_iff_not_imp_right.2 (hnested.name_eq hmade), ?_⟩
  rintro rfl
  refine ⟨fun name value hmem => ?_, fun hfaithful path type value hresolve hvalue => ?_⟩
  · cases hfield : inner.schema.field? name with
    | none => exact .inr ⟨rfl, (hinner.lookup_extras hmem hfield).1⟩
    | some field =>
        exact .inl ⟨field, rfl,
          (hinner.mayHold hmem hfield).exists_accept_iff hinner.keeps.made.built hfield⟩
  · obtain ⟨_, ending, hend, htype⟩ := Schema.pathEnd?_of_resolvePath hresolve
    obtain ⟨part, name, hpart, hlast, hmem, hpartEnd⟩ :=
      hinner.exists_nested_of_valueAt? hfaithful hend (by simp [htype]) hvalue
    exact ⟨part, name, hpart, hlast, hmem, or_iff_not_imp_left.2
      ((hpart.made hinner).exists_check_of_pathEnd? hpartEnd htype hmem)⟩

/-! ## Lights, logs and pages -/

def lampPart : Schema :=
  ⟨"lamp", .embedded, [⟨"watts", .primitive .float, true, none, false, none⟩], false, []⟩

def lightSchema : Schema :=
  ⟨"lights", .document, [⟨"lamps", .listOf (.nested lampPart), false, none, false, none⟩],
    false, []⟩

def lightMembers : Json.Members :=
  [("lamps", .array [.null, .object [("watts", .number (.integer 40 (by decide)))]])]

def lamp : Record := ⟨lampPart, [.held (.int 40)], []⟩

def light : Record := ⟨lightSchema, [.held (.list [.null, .object lamp])], []⟩

end Record

end

section

attribute [local instance] CustomCodecs.none

namespace Record

theorem made_lampPart : lampPart.Made := by
  refine Schema.made_of_isOk (by decide +kernel) ?_ ?_
  · simp [lampPart, FieldType.Made.primitive]
  · simp [lampPart, FieldSpec.defaultValue?]

theorem made_lightSchema : lightSchema.Made := by
  refine Schema.made_of_isOk (by decide +kernel) ?_ ?_
  · simp [lightSchema, FieldType.Made.listOf, FieldType.Made.nested made_lampPart]
  · simp [lightSchema, FieldSpec.defaultValue?]

theorem nests_light : light.Nests lampPart lamp :=
  .field .self (by rfl) (.head _) (.listOf (.tail _ (.head _)) .nested)

theorem nested_conforms_lamp :
    light.Made ∧ light.Nests lampPart lamp ∧ lamp.schema = lampPart ∧
      lampPart.resolvePath ["watts"] = .ok (some (.primitive .float)) ∧
      lamp.valueAt? ["watts"] = some (.int 40) ∧
      ∃ field, lampPart.field? "watts" = some field ∧
        ∃ accepted, field.accept (.int 40) = .ok accepted := by
  have hordered : (Json.object lightMembers).isOrdered := by decide +kernel
  have hload : lightSchema.loadRecord lightMembers = .ok fun _ => light := by rfl
  have hmade : light.Made := .load made_lightSchema hordered (by simp) hload .declared
  obtain ⟨_, hconforms⟩ := nested_conforms hmade nests_light
  obtain ⟨hentries, _⟩ := hconforms rfl
  refine ⟨hmade, nests_light, rfl, by rfl, by rfl, ?_⟩
  rcases hentries "watts" (.int 40) (.head _) with ⟨field, hfield, haccepts⟩ | ⟨hnone, _⟩
  · refine ⟨field, hfield, haccepts.2 ?_⟩
    obtain rfl : _ = field := Option.some.inj hfield
    simp [Schema.Lapses, lampPart, Schema.field?, FieldSpec.Reads, FieldSpec.Draws]
  · simp [Schema.field?, lampPart] at hnone

def flarePart : Schema :=
  ⟨"lamp", .embedded, [⟨"color", .string, false, none, false, none⟩], false, []⟩

def flare : Record := ⟨flarePart, [.held (.string "red")], []⟩

/-- Watches at a time that is declared as an integer and written in milliseconds. -/
def watchPart : Schema :=
  ⟨"watch", .embedded, [⟨"at", .primitive .int, false, none, false, some .epochMillis⟩], false, []⟩

def logSchema : Schema :=
  ⟨"logs", .document, [⟨"watch", .nested watchPart, false, none, false, none⟩], false, []⟩

def notePart : Schema := ⟨"note", .embedded, [], true, []⟩

def pageSchema : Schema :=
  ⟨"pages", .document, [⟨"note", .nested notePart, false, none, false, none⟩], false, []⟩

/-- Clocks whose factory brings an hour when they are declared, and a text later. -/
def clockPart : Schema :=
  ⟨"clock", .embedded, [⟨"hour", .primitive .int, false,
    some (.factory fun moment => if moment = .declared then .int 12 else .string "noon"), false,
    none⟩], false, []⟩

/-- A flare is put among the lamps, an instant is read where integers are declared, a text is made
there, and a key of a note is no text although its path has this type. -/
theorem nested_differ :
    (∀ schema ∈ [lampPart, lightSchema, flarePart, watchPart, logSchema, notePart, pageSchema,
      clockPart], schema.build.isOk = true) ∧
    (Record.new flarePart .declared).set "color" (.string "red") = .ok flare ∧
    (∃ after, light.set "lamps" (.list [.object flare]) = .ok after ∧
      after.Nests lampPart flare ∧ ("color", Value.string "red") ∈ flare.entries ∧
      lampPart.field? "color" = none ∧ lampPart.isOpen = false) ∧
    (∃ (log : Drawn Record) (watch : Record) (value : Value), logSchema.loadRecord
        [("watch", .object [("at", .number (.integer 5 (by decide)))])] = .ok log ∧
      (log .declared).Nests watchPart watch ∧ watch.get? "at" = .ok (some value) ∧
      ∃ field, watchPart.field? "at" = some field ∧ (field.accept value).isOk = false) ∧
    (∃ moment value, (Record.new clockPart moment).get? "hour" = .ok (some value) ∧
      ∃ field, clockPart.field? "hour" = some field ∧ (field.accept value).isOk = false) ∧
    ∃ (page : Drawn Record) (value : Value), pageSchema.loadRecord
        [("note", .object [("_key", .number (.integer 5 (by decide)))])] = .ok page ∧
      pageSchema.resolvePath ["note", "_key"] = .ok (some .string) ∧
      (page .declared).valueAt? ["note", "_key"] = some value ∧
      (FieldType.string.check "_key" value).isOk = false := by
  refine ⟨by decide +kernel, by rfl, ⟨_, rfl, ?_, .head _, by rfl, rfl⟩,
    ⟨_, _, _, rfl, .field .self (by rfl) (.head _) .nested, by rfl, _, rfl, by rfl⟩,
    ⟨Moment.declared.first, .string "noon", by rfl, _, rfl, by rfl⟩, _, _, rfl, by rfl, by rfl,
    by rfl⟩
  exact .field .self (by rfl) (.head _) (.listOf (.head _) .nested)

end Record

end

end DocGraph
