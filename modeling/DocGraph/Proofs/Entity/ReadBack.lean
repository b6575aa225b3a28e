import DocGraph.Proofs.Record.Readable
import DocGraph.Proofs.World.Basic
/-!
# Entities are read back

An entity that was made or read, and then changed in any way, is read back from what is written for
it.  The entity that is read is written in the same way, except for defaults that are omitted.
-/

namespace DocGraph

open Outcome

/-! ## The record under a change -/

theorem Entity.Edit.record_setSource (endpoint : Endpoint) (entity : Entity) :
    (perform (.setSource endpoint) entity).2.record = entity.record := by
  rw [perform_setSource]
  split <;> simp

theorem Entity.Edit.record_setTarget (endpoint : Endpoint) (entity : Entity) :
    (perform (.setTarget endpoint) entity).2.record = entity.record := by
  rw [perform_setTarget]
  split <;> simp

theorem Entity.Edit.record_connect (source target : Endpoint) (entity : Entity) :
    (perform (.connect source target) entity).2.record = entity.record := by
  have hsource := record_setSource source entity
  rw [perform_connect]
  split
  · rename_i after heq
    rw [heq] at hsource
    exact (record_setTarget target after).trans hsource
  · rename_i after heq
    rw [heq] at hsource
    exact hsource

theorem Mutation.record_apply (mutation : Mutation) (entity : Entity) :
    (mutation.apply entity).record = entity.record ∨
    (∃ name value, mutation = .set name value ∧
      entity.record.set name value = .ok (mutation.apply entity).record) ∨
    ∃ name previous,
      entity.record.remove name = .ok (previous, (mutation.apply entity).record) := by
  cases mutation with
  | set name value =>
      have happly : (Mutation.set name value).apply entity =
          (Entity.Edit.perform (.set name value) entity).2 := rfl
      rw [happly, Entity.Edit.perform_set]
      split
      · exact .inr (.inl ⟨name, value, rfl, by simpa⟩)
      · exact .inl rfl
      · exact .inl rfl
  | remove name =>
      have happly : (Mutation.remove name).apply entity =
          (Entity.Edit.perform (.remove name) entity).2 := rfl
      rw [happly, Entity.Edit.perform_remove]
      split
      · exact .inr (.inr ⟨name, _, by simpa⟩)
      · exact .inl rfl
      · exact .inl rfl
  | setKey key =>
      have happly : (Mutation.setKey key).apply entity =
          (Entity.Edit.perform (.setKey key) entity).2 := rfl
      rw [happly, Entity.Edit.perform_setKey]
      split <;> exact .inl rfl
  | setSource endpoint => exact .inl (Entity.Edit.record_setSource endpoint entity)
  | setTarget endpoint => exact .inl (Entity.Edit.record_setTarget endpoint entity)
  | connect source target => exact .inl (Entity.Edit.record_connect source target entity)

/-! ## Reserved attributes -/

theorem identityAttribute_of_get?_eq {members : Json.Members} {name : String}
    {value : Option String} (h : Assoc.get? name members = value.map .string) :
    identityAttribute members name = .ok value := by
  cases value <;> simp [identityAttribute, h]

theorem requiredAttribute_of_get? {members : Json.Members} {name text : String}
    (h : Assoc.get? name members = some (.string text)) :
    requiredAttribute members name = .ok text := by
  simp [requiredAttribute, Schema.identityAttribute_of_get? h]

theorem Identity.mem_reserved_of_members {identity : Identity} {key : String}
    (h : key ∈ identity.members.map Prod.fst) : key ∈ Schema.reservedAttributes := by
  obtain ⟨entry, hentry, rfl⟩ := List.mem_map.1 h
  obtain ⟨⟨name, value⟩, hname, hsome⟩ := List.mem_filterMap.1 hentry
  obtain ⟨_, _, rfl⟩ := Option.map_eq_some_iff.1 hsome
  simp only [List.mem_cons, List.not_mem_nil, or_false, Prod.mk.injEq] at hname
  rcases hname with ⟨rfl, _⟩ | ⟨rfl, _⟩ | ⟨rfl, _⟩ <;> simp [Schema.reservedAttributes]

namespace Schema

variable {schema : Schema} {entity : Entity} {ends members : Json.Members}

theorem sorted_of_dumpEndpoints
    (h : schema.dumpEndpoints entity entity.identity.members = .ok ends) : Assoc.Sorted ends := by
  have hsorted := entity.identity.sorted_members
  rcases dumpEndpoints_cases h with ⟨_, rfl⟩ | ⟨_, source, target, _, _, rfl⟩
  · exact hsorted
  · exact Assoc.sorted_insert (Assoc.sorted_insert hsorted)

theorem mem_reserved_of_dumpEndpoints
    (h : schema.dumpEndpoints entity entity.identity.members = .ok ends) :
    ∀ key ∈ ends.map Prod.fst, key ∈ reservedAttributes := by
  intro key hkey
  rcases dumpEndpoints_cases h with ⟨_, rfl⟩ | ⟨_, source, target, _, _, rfl⟩
  · exact Identity.mem_reserved_of_members hkey
  · obtain ⟨entry, hentry, rfl⟩ := List.mem_map.1 hkey
    rcases Assoc.mem_insert hentry with rfl | hentry
    · simp [reservedAttributes]
    · rcases Assoc.mem_insert hentry with rfl | hentry
      · simp [reservedAttributes]
      · exact Identity.mem_reserved_of_members (List.mem_map_of_mem hentry)

theorem get?_of_dumpEndpoints
    (h : schema.dumpEndpoints entity entity.identity.members = .ok ends) :
    Assoc.get? "_key" ends = entity.identity.key.map .string ∧
      Assoc.get? "_id" ends = entity.identity.id.map .string ∧
      Assoc.get? "_rev" ends = entity.identity.rev.map .string := by
  rcases dumpEndpoints_cases h with ⟨_, rfl⟩ | ⟨_, source, target, _, _, rfl⟩ <;>
    simp [Assoc.get?_insert, Identity.get?_members]

end Schema

section

variable [CustomCodecs]

/-! ## Entities that can be made -/

/-- An entity of a schema that was started or read, and then changed. -/
inductive Entity.Made (schema : Schema) : Entity → Prop
  | new (moment : Moment) : Made schema (Entity.new schema moment)
  | load {members : Json.Members} {loaded : Drawn Entity}
      (hordered : (Json.object members).isOrdered) (hcodecs : CustomCodecs.ReadMade)
      (h : schema.load members = .ok loaded) (moment : Moment) : Made schema (loaded moment)
  | change {entity : Entity} (h : Made schema entity) (mutation : Mutation)
      (hvalue : ∀ name value, mutation = .set name value → value.Made) :
      Made schema (mutation.apply entity)

theorem Entity.Made.run {schema : Schema} {entity : Entity} (h : Entity.Made schema entity)
    {mutations : List Mutation}
    (hvalues : ∀ name value, .set name value ∈ mutations → value.Made) :
    Entity.Made schema (mutations.foldl (fun entity mutation => mutation.apply entity) entity) := by
  induction mutations generalizing entity with
  | nil => exact h
  | cons mutation mutations ih =>
      have hnext := h.change mutation fun name value heq =>
        hvalues name value (heq ▸ List.mem_cons_self)
      exact ih hnext fun name value hmem => hvalues name value (List.mem_cons_of_mem _ hmem)

theorem Entity.Made.record {schema : Schema} (hschema : schema.Made) {entity : Entity}
    (h : Entity.Made schema entity) : entity.record.Made ∧ entity.record.schema = schema := by
  induction h with
  | new moment => exact ⟨.new hschema moment, rfl⟩
  | load hordered hcodecs hload moment =>
      obtain ⟨record, _, hrecord, _, _, _, hsame, _⟩ := Schema.load_cases hload moment
      rw [hsame]
      exact ⟨.load hschema hordered hcodecs hrecord moment,
        Schema.schema_of_loadRecord hrecord moment⟩
  | change _ mutation hvalue ih =>
      rename_i before _
      obtain ⟨hmade, hsame⟩ := ih
      rcases mutation.record_apply before with hrecord | ⟨name, value, hmutation, hset⟩ |
        ⟨name, previous, hremove⟩
      · rw [hrecord]
        exact ⟨hmade, hsame⟩
      · exact ⟨.set hmade (hvalue name value hmutation) hset,
          (Record.schema_of_set hset).trans hsame⟩
      · exact ⟨.remove hmade hremove, (Record.schema_of_remove hremove).trans hsame⟩

/-! ## Reading back -/

namespace Schema

variable {schema : Schema} {entity : Entity} {ends members : Json.Members}

theorem load_of_dumpEndpoints
    (h : schema.dumpEndpoints entity entity.identity.members = .ok ends)
    (hreserved : ∀ name ∈ reservedAttributes, Assoc.get? name members = Assoc.get? name ends)
    {record : Drawn Record} (hrecord : schema.loadRecord members = .ok record) :
    ∃ loaded, schema.load members = .ok loaded ∧ ∀ moment,
      (loaded moment).liveRecord = .ok (record moment) ∧
      schema.dumpEndpoints (loaded moment) (loaded moment).identity.members = .ok ends := by
  obtain ⟨hgetKey, hgetId, hgetRev⟩ := get?_of_dumpEndpoints h
  have hkey := identityAttribute_of_get?_eq ((hreserved "_key" (by decide)).trans hgetKey)
  have hid := identityAttribute_of_get?_eq ((hreserved "_id" (by decide)).trans hgetId)
  have hrev := identityAttribute_of_get?_eq ((hreserved "_rev" (by decide)).trans hgetRev)
  have hlive : ∀ moment source target state, state ≠ .deleted →
      (⟨record moment, entity.identity, source, target, state⟩ : Entity).liveRecord =
        .ok (record moment) := by
    intro moment source target state hstate
    simp [Entity.liveRecord, Entity.ensureLive, hstate]
  have hstate : (if entity.identity.rev.isSome then EntityState.persisted else .unbound)
      ≠ .deleted := by
    split <;> simp
  rcases dumpEndpoints_cases h with
    ⟨hdocument, rfl⟩ | ⟨hedge, source, target, hsource, htarget, rfl⟩
  · refine ⟨fun moment => ⟨record moment, entity.identity, none, none, _⟩, ?_,
      fun moment => ⟨hlive moment none none _ hstate, ?_⟩⟩
    · simp [load, hrecord, hkey, hid, hrev, hdocument]
    · simp [dumpEndpoints, hdocument]
  · have hfrom : requiredAttribute members "_from" = .ok source :=
      requiredAttribute_of_get? ((hreserved "_from" (by decide)).trans (by
        rw [Assoc.get?_insert_of_ne (by decide), Assoc.get?_insert_self]))
    have hto : requiredAttribute members "_to" = .ok target :=
      requiredAttribute_of_get? ((hreserved "_to" (by decide)).trans (Assoc.get?_insert_self _ _ _))
    refine ⟨fun moment => ⟨record moment, entity.identity, some (.id source), some (.id target), _⟩,
      ?_, fun moment => ⟨hlive moment _ _ _ hstate, ?_⟩⟩
    · simp [load, hrecord, hkey, hid, hrev, hedge, hfrom, hto]
    · simp [dumpEndpoints, hedge, resolveEndpoint, hsource, htarget]

/-- What is written for an entity is read, and is written once more for the entity that is read,
without defaults that are omitted. -/
theorem load_dump {schema : Schema} (hschema : schema.Made) (hkind : schema.kind ≠ .embedded)
    {entity : Entity} (hentity : Entity.Made schema entity)
    (hread : schema.CanRead entity.record) {members : Json.Members}
    (h : schema.dump entity = .ok members) :
    ∃ loaded, schema.load members = .ok loaded ∧
      ∀ moment, schema.dump (loaded moment) = .ok (schema.trim members moment) := by
  obtain ⟨hrecord, hsame⟩ := hentity.record hschema
  obtain ⟨ends, hends, hdump⟩ := dump_cases h
  have hkeeps := hrecord.keeps
  have hidentity : ∀ key ∈ ends.map Prod.fst, schema.isIdentity key = true := fun key hkey =>
    (isIdentity_iff hkind).2 (mem_reserved_of_dumpEndpoints hends key hkey)
  rw [← hsame] at hdump hidentity
  have hfields : ∀ field ∈ schema.fields, field.ComesBack members := by
    have hslots := hkeeps.dump_slots hdump hidentity
    have hholds := hkeeps.slots
    rw [hsame] at hslots hholds
    cases schema
    exact fields_comeBack _ hschema.types hholds hread hslots
  obtain ⟨read, hload, hback⟩ := hkeeps.exists_loadRecord hdump (sorted_of_dumpEndpoints hends)
    hidentity (hsame ▸ hfields)
  have hreserved : ∀ name ∈ reservedAttributes, Assoc.get? name members = Assoc.get? name ends :=
    fun name hname => by
      have hname := (isIdentity_iff hkind).2 hname
      rw [← hsame] at hname
      exact hkeeps.get?_of_isIdentity hdump hname
  rw [hsame] at hload hback
  obtain ⟨loaded, hloaded, hparts⟩ := load_of_dumpEndpoints hends hreserved hload
  refine ⟨loaded, hloaded, fun moment => ?_⟩
  obtain ⟨hlive, hagain⟩ := hparts moment
  simp [dump, hlive, hagain, hback moment]

end Schema

end

namespace Schema

section

attribute [local instance] CustomCodecs.none

def portSchema : Schema :=
  ⟨"ports", .document, [⟨"name", .string, true, none, false, none⟩,
    ⟨"opened", .primitive .datetime, false, none, false, none⟩], false, []⟩

def legSchema : Schema :=
  ⟨"legs", .edge, [
    ⟨"rating", .primitive .float, false, some (.fixed (.float ⟨0x3ff0000000000000⟩)), true, none⟩,
    ⟨"speed", .any, false, some (.fixed (.json (.string "slow"))), true, none⟩,
    ⟨"leaves", .primitive .datetime, false, none, false, none⟩,
    ⟨"seen", .primitive .datetime, false, none, false, some .epochMillis⟩,
    ⟨"calls", .listOf (.nested portSchema), false, none, false, none⟩,
    ⟨"ticket", .primitive .int, true, some (.factory fun moment => .int (.ofNat moment.length)),
      false, none⟩], true, []⟩

def bergen : Record := ⟨portSchema, [.held (.string "Bergen"), .absent], []⟩

/-- Half of the leap second at the end of 2016. -/
def leapSecond : Instant := ⟨1483228799, 1500000000, by decide, by decide⟩

def leg : Entity :=
  [.set "speed" (.string "slow"), .set "leaves" (.datetime leapSecond),
    .set "seen" (.datetime leapSecond), .set "calls" (.list [.object bergen, .null]),
    .set "note" (.list [.int 1, .datetime leapSecond]), .setKey "7",
    .connect (.id "ports/a") (.id "ports/b")].foldl
    (fun entity (mutation : Mutation) => mutation.apply entity)
    (Entity.new legSchema .declared)

def legMembers : Json.Members := [
  ("_from", .string "ports/a"),
  ("_key", .string "7"),
  ("_to", .string "ports/b"),
  ("calls", .array [.object [("name", .string "Bergen")], .null]),
  ("leaves", .string "2016-12-31T23:59:60.500Z"),
  ("note", .array [.ofInt64 1, .string "2016-12-31T23:59:60.500Z"]),
  ("seen", .ofInt64 1483228800500),
  ("ticket", .ofInt64 6)]

theorem made_portSchema : portSchema.Made := by
  refine made_of_isOk (by decide +kernel) ?_ ?_
  · simp [portSchema, FieldType.string, FieldType.Made.primitive]
  · simp [portSchema, FieldSpec.defaultValue?]

theorem made_legSchema : legSchema.Made := by
  refine made_of_isOk (by decide +kernel) ?_ ?_
  · simp [legSchema, FieldType.any, FieldType.Made.primitive, FieldType.Made.listOf,
      FieldType.Made.nested made_portSchema]
  · simp [legSchema, FieldSpec.defaultValue?, DefaultValue.produce, Value.Made.float,
      Value.Made.json, Value.Made.int]

theorem made_leg : Entity.Made legSchema leg := by
  have hset : (Record.new portSchema .declared).set "name" (.string "Bergen") = .ok bergen := rfl
  have hbergen : bergen.Made := .set (.new made_portSchema .declared) (.string "Bergen") hset
  refine (Entity.Made.new .declared).run fun name value hmem => ?_
  simp only [List.mem_cons, List.not_mem_nil, or_false, Mutation.set.injEq, reduceCtorEq] at hmem
  rcases hmem with ⟨_, rfl⟩ | ⟨_, rfl⟩ | ⟨_, rfl⟩ | ⟨_, rfl⟩ | ⟨_, rfl⟩
  · exact .string _
  · exact .datetime _
  · exact .datetime _
  · exact .list (by simp [Value.Made.null, Value.Made.object hbergen])
  · exact .list (by simp [Value.Made.int, Value.Made.datetime])

theorem record_leg : leg.record = ⟨legSchema, [.held (.float ⟨0x3ff0000000000000⟩),
    .held (.string "slow"), .held (.datetime leapSecond), .held (.datetime leapSecond),
    .held (.list [.object bergen, .null]), .held (.int 6)],
    [("note", .list [.int 1, .datetime leapSecond])]⟩ :=
  rfl

/-- A speed that equals its default as text only is written at first, and omitted when it was
read. -/
theorem load_dump_leg :
    legSchema.dump leg = .ok (Assoc.insert "speed" (.string "slow") legMembers) ∧
    ∃ loaded,
      legSchema.load (Assoc.insert "speed" (.string "slow") legMembers) = .ok loaded ∧
      legSchema.dump (loaded .declared) = .ok legMembers := by
  have hyear : leapSecond.HasPlainYear := by decide +kernel
  have hmillis : leapSecond.HasMillis := by decide
  have hread : legSchema.CanRead leg.record := by
    rw [record_leg]
    simp [legSchema, CanRead, fieldsCanRead, FieldSpec.CanRead, FieldType.CanRead, FieldType.any,
      FieldType.string, FieldSpec.Draws, FieldSpec.Takes, FieldType.Fits, Primitive.Fits,
      Value.isNull, Codec.meaning, FieldCodec.readsBack_epochMillis_iff, bergen, portSchema, hyear,
      hmillis]
  have hdump : legSchema.dump leg = .ok (Assoc.insert "speed" (.string "slow") legMembers) := by
    decide +kernel
  have htrim : legSchema.trim (Assoc.insert "speed" (.string "slow") legMembers) .declared =
      legMembers := by
    decide +kernel
  obtain ⟨loaded, hload, hback⟩ := load_dump made_legSchema (by decide) made_leg hread hdump
  exact ⟨hdump, loaded, hload, by rw [hback, htrim]⟩

def eventSchema : Schema :=
  ⟨"events", .document, [⟨"at", .primitive .datetime, false, none, false, none⟩], false, []⟩

/-- The first hour of the year 10000, in the year before where it is read. -/
def newYearMembers : Json.Members := [("at", .string "9999-12-31T23:59:59-01:00")]

/-- An instant beyond the year 9999 can be read, by its local time, but not once it was written. -/
theorem not_load_dump_new_year :
    eventSchema.Made ∧ ∃ entity, Entity.Made eventSchema entity ∧
      eventSchema.dump entity = .ok [("at", .string "+10000-01-01T00:59:59Z")] ∧
      (eventSchema.load [("at", .string "+10000-01-01T00:59:59Z")]).isOk = false := by
  have hmade : eventSchema.Made := by
    refine made_of_isOk (by decide +kernel) ?_ ?_
    · simp [eventSchema, FieldType.Made.primitive]
    · simp [eventSchema, FieldSpec.defaultValue?]
  have hloads : (eventSchema.load newYearMembers).isOk := by decide +kernel
  obtain ⟨loaded, hload⟩ := exists_of_isOk hloads
  have hdump : (eventSchema.load newYearMembers >>= fun loaded => eventSchema.dump
      (loaded .declared)) = .ok [("at", .string "+10000-01-01T00:59:59Z")] := by decide +kernel
  rw [hload] at hdump
  exact ⟨hmade, loaded .declared, .load (by decide) (by simp [CustomCodecs.ReadMade]) hload _,
    hdump, by decide +kernel⟩

/-- A record of another schema of the same name can be put into a field, and be written. -/
example :
    let part : Schema := ⟨"part", .embedded, [⟨"n", .primitive .int, false, none, false, none⟩],
      false, []⟩
    let other : Schema := ⟨"part", .embedded, [⟨"s", .string, false, none, false, none⟩], false, []⟩
    let type : FieldType := .nested part
    let value : Value := .object ⟨other, [.held (.string "x")], []⟩
    (type.check "part" value).isOk = true ∧
      value.toJson "part" = .ok (.object [("s", .string "x")]) ∧
      (type.decode "part" (.object [("s", .string "x")])).isOk = false := by
  decide +kernel

/-- A factory that brings an integer when the schema is built and a text later fills a field with
what is written and not read. -/
example :
    let ticket : FieldSpec := ⟨"n", .primitive .int, false,
      some (.factory fun moment => if moment = .declared then .int 1 else .string "x"), false, none⟩
    let schema : Schema := ⟨"tickets", .document, [ticket], false, []⟩
    schema.build.isOk = true ∧
      schema.dump (Entity.new schema .declared) = .ok [("n", .string "x")] ∧
      (schema.load [("n", .string "x")]).isOk = false := by
  decide +kernel

end

end Schema

end DocGraph
