import DocGraph.Proofs.Entity.ReadBack
import DocGraph.Proofs.Record.Aligned
import DocGraph.Proofs.World.Stored
/-!
# Values are stored under their own names

A collection takes the entities of every schema that has its name, and it writes them through its
own one.  Where the two schemas give the same names to the values that an entity holds, each value
is stored under its name.  Where they do not, a value is stored under a name that is not its own, or
is not stored at all.
-/

namespace DocGraph

open Outcome StoredDatabase

/-- A document holds what an entity says, each value under its own name. -/
structure Schema.HoldsByName [CustomCodecs] (schema : Schema) (entity : Entity)
    (document : Json.Members) : Prop where
  value : ∀ name ∉ reservedAttributes, ∀ json, Assoc.get? name document = some json →
    ∃ value, entity.get? name = .ok (some value) ∧
      schema.encodeNamed entity.record name value = .ok json
  /-- A value may be missing that stands in for a missing field, or is a default that is left out.
  A part of a document may hold a reserved attribute of its own, which gives way to the one of the
  document. -/
  written : ∀ name value, entity.get? name = .ok (some value) →
    entity.record.isDefaulted name = false →
    schema.omitsNamed entity.record name value = false →
    (entity.schema.kind = .embedded → name ∉ reservedAttributes) →
    ∃ json, schema.encodeNamed entity.record name value = .ok json ∧
      Assoc.get? name document = some json

namespace Schema

variable [CustomCodecs] {schema : Schema} {entity : Entity}

theorem not_reserved_of_get? {record : Record} (hrecord : record.Keeps)
    (hkind : record.schema.kind ≠ .embedded) {name : String} {value : Value}
    (h : record.get? name = .ok (some value)) : name ∉ reservedAttributes := by
  unfold Record.get? at h
  cases hposition : record.schema.position? name with
  | some position =>
      exact not_reserved_of_build hrecord.made.built
        (isSome_position?_iff.1 (by rw [hposition]; rfl))
  | none =>
      rw [hposition] at h
      dsimp only at h
      split at h
      · have hlookup := Except.ok.inj h
        rw [Assoc.lookup_eq_get?] at hlookup
        have hkey := List.mem_map_of_mem (f := Prod.fst) (Assoc.mem_of_get?_eq_some hlookup)
        have hplain := (hrecord.extras name hkey).1
        rw [← isIdentity_iff hkind, hplain]
        simp
      · simp [Record.unknown] at h

theorem get?_of_dump {members : Json.Members} (h : schema.dump entity = .ok members)
    (name : String) : entity.get? name = entity.record.get? name := by
  obtain ⟨record, hrecord, _⟩ := bind_eq_ok_iff.1 h
  obtain ⟨_, hlive, _⟩ := bind_eq_ok_iff.1 hrecord
  rw [Entity.get?, hlive, ok_bind]

/-- The document that the server makes of what is written for an entity holds it by name. -/
theorem holdsByName_withIdentity (hbuilt : schema.build = .ok schema)
    (hrecord : entity.record.Made) (haligned : schema.Aligned entity.record)
    {members body : Json.Members} (hdump : schema.dump entity = .ok members)
    (hbody : StandsFor body members) (name key rev : String) :
    schema.HoldsByName entity (withIdentity body name key rev) := by
  have hkeeps := hrecord.keeps
  have hnodup := nodup_of_build hbuilt
  obtain ⟨ends, hends, hwritten⟩ := dump_cases hdump
  have hplain : ∀ other ∉ reservedAttributes,
      Assoc.get? other (withIdentity body name key rev) = Assoc.get? other members := by
    intro other hother
    have hidentity : other ∉ identityAttributes := fun hmem =>
      hother (identityAttributes_subset hmem)
    rw [get?_withIdentity_of_not_mem body name key rev hidentity, hbody.get? other hidentity]
  constructor
  · intro other hother json hjson
    rw [hplain other hother] at hjson
    rw [get?_of_dump hdump]
    refine value_of_dumpRecord hnodup hkeeps haligned hwritten ?_ hjson
    exact Assoc.get?_eq_none_of_not_mem fun hmem =>
      hother (mem_reserved_of_dumpEndpoints hends other hmem)
  · intro other value hvalue hdefaulted homits hembedded
    rw [get?_of_dump hdump] at hvalue
    have hother : other ∉ reservedAttributes := by
      by_cases hkind : entity.schema.kind = .embedded
      · exact hembedded hkind
      · exact not_reserved_of_get? hkeeps hkind hvalue
    rw [hplain other hother]
    exact written_of_dumpRecord hnodup hkeeps haligned hwritten hvalue hdefaulted homits

end Schema

namespace Collection

variable {draw : Nat → String} {collection : Collection} {entity after : Entity}
  {host next : Host} {identity : Identity}

/-- After a write that succeeds, the document under the key of the entity holds its values by name,
if the schema of the collection and the one of the entity agree on the names of these values. -/
theorem stored_by_name [CustomCodecs] (hbuilt : collection.schema.build = .ok collection.schema)
    (hrecord : entity.record.Made) (haligned : collection.schema.Aligned entity.record)
    {write : EntityClient Identity} (hwrite : write = collection.create ∨ write = collection.update)
    (hrun : (write.about entity).run (Host.answerFrom draw) host =
      ((.ok identity, after), next)) :
    ∃ key document, after.identity.key = some key ∧
      next.server.documentAt? (collection.place key) = some document ∧
      collection.schema.HoldsByName entity document := by
  obtain ⟨members, body, key, rev, hdump, hbody, hfiles, rfl⟩ := writes_of_write hwrite hrun
  exact ⟨key, _, rfl, (hfiles _).trans (if_pos rfl),
    Schema.holdsByName_withIdentity hbuilt hrecord haligned hdump hbody _ key rev⟩

/-! ## Visitors seen in three ways -/

attribute [local instance] CustomCodecs.none

def textField (name : String) : FieldSpec := ⟨name, .string, false, none, false, none⟩

def visitorSchema (names : List String) : Schema :=
  ⟨"visitors", .document, names.map textField, false, ["name"]⟩

def visitor : Entity :=
  [.set "name" (.string "Ada"), .set "city" (.string "Paris"), .set "phone" (.string "555")].foldl
    (fun entity (mutation : Mutation) => mutation.apply entity)
    (Entity.new (visitorSchema ["name", "city", "phone"]) .declared)

def extendedVisitors : Collection :=
  ⟨⟨Config.default, Registry.empty⟩, visitorSchema ["name", "city", "phone", "mail"]⟩

def exchangedVisitors : Collection :=
  ⟨⟨Config.default, Registry.empty⟩, visitorSchema ["city", "name"]⟩

def visitorHost : Host :=
  ((World.start ["_system"]).run Host.revision [.request ⟨.post,
    Http.apiPath "_system" ["collection"], [],
    some (.ofMembers [("name", .string "visitors"), ("type", .ofNat 2)])⟩]).host

def visitorCreation (collection : Collection) : (Except Error Identity × Entity) × Host :=
  (collection.create.about visitor).run (Host.answerFrom Host.revision) visitorHost

def visitorDocument : Json.Members := [
  ("_id", .string "visitors/Ada"),
  ("_key", .string "Ada"),
  ("_rev", .string "_rev1"),
  ("city", .string "Paris"),
  ("name", .string "Ada"),
  ("phone", .string "555")]

/-- The visitor under the key that is made of its name, with its values in each other's place and
without its phone. -/
def exchangedDocument : Json.Members := [
  ("_id", .string "visitors/Ada"),
  ("_key", .string "Ada"),
  ("_rev", .string "_rev1"),
  ("city", .string "Ada"),
  ("name", .string "Paris")]

theorem record_visitor : visitor.record =
    ⟨visitorSchema ["name", "city", "phone"],
      [.held (.string "Ada"), .held (.string "Paris"), .held (.string "555")], []⟩ := rfl

theorem made_visitor : visitor.record.Made := by
  have hschema : (visitorSchema ["name", "city", "phone"]).Made := by
    refine Schema.made_of_isOk (by decide +kernel) ?_ ?_
    · simp [visitorSchema, textField, FieldType.string, FieldType.Made.primitive]
    · simp [visitorSchema, textField, FieldSpec.defaultValue?]
  refine (Entity.Made.record hschema ((Entity.Made.new .declared).run fun name value hmem => ?_)).1
  simp only [List.mem_cons, List.not_mem_nil, or_false, Mutation.set.injEq] at hmem
  rcases hmem with ⟨_, rfl⟩ | ⟨_, rfl⟩ | ⟨_, rfl⟩
  · exact .string _
  · exact .string _
  · exact .string _

theorem aligned_extendedVisitors : extendedVisitors.schema.Aligned visitor.record := by
  rw [record_visitor]
  intro position value hheld
  match position with
  | 0 => rfl
  | 1 => rfl
  | 2 => rfl
  | _ + 3 => simp at hheld

theorem stored_by_name_visitor :
    (visitorCreation extendedVisitors).1.1.isOk ∧
    (visitorCreation extendedVisitors).2.server.documentAt? (extendedVisitors.place "Ada") =
      some visitorDocument ∧
    extendedVisitors.schema.HoldsByName visitor visitorDocument := by
  have hbuilt : extendedVisitors.schema.build = .ok extendedVisitors.schema := by rfl
  have hok : (visitorCreation extendedVisitors).1.1.isOk := by decide +kernel
  have hkey : (visitorCreation extendedVisitors).1.2.identity.key = some "Ada" := by
    decide +kernel
  have hstored : (visitorCreation extendedVisitors).2.server.documentAt?
      (extendedVisitors.place "Ada") = some visitorDocument := by
    decide +kernel
  obtain ⟨identity, hidentity⟩ := exists_of_isOk hok
  have hrun : visitorCreation extendedVisitors =
      ((.ok identity, (visitorCreation extendedVisitors).1.2),
        (visitorCreation extendedVisitors).2) := by
    rw [← hidentity]
  obtain ⟨key, document, hafter, hdocument, hholds⟩ :=
    stored_by_name hbuilt made_visitor aligned_extendedVisitors (Or.inl rfl) hrun
  obtain rfl : key = "Ada" := Option.some.inj (hafter.symm.trans hkey)
  obtain rfl := Option.some.inj (hdocument.symm.trans hstored)
  exact ⟨hok, hstored, hholds⟩

/-- The name of a schema does not tell where its fields stand: a visitor may be created whose name
is stored as its city, whose city is stored as its name, and whose phone is not stored. -/
theorem not_stored_by_name_exchanged :
    exchangedVisitors.schema.build = .ok exchangedVisitors.schema ∧ visitor.record.Made ∧
    (visitorCreation exchangedVisitors).1.1.isOk ∧
    (visitorCreation exchangedVisitors).2.server.documentAt? (exchangedVisitors.place "Ada") =
      some exchangedDocument ∧
    ¬ exchangedVisitors.schema.HoldsByName visitor exchangedDocument := by
  refine ⟨by rfl, made_visitor, by decide +kernel, by decide +kernel, fun hholds => ?_⟩
  obtain ⟨json, _, hstored⟩ :=
    hholds.written "phone" (.string "555") rfl rfl rfl (fun _ => by decide)
  have hmissing : Assoc.get? "phone" exchangedDocument = none := by decide
  rw [hmissing] at hstored
  simp at hstored

end Collection

end DocGraph
