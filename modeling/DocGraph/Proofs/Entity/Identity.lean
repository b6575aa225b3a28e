import DocGraph.Client.Collection
import DocGraph.Proofs.Entity.Edit
import DocGraph.Proofs.Entity.RoundTrip
import DocGraph.Proofs.Schema.Written
import DocGraph.Proofs.Server.Documents
/-!
# Identities on their way to the server and back

The identity and the ends of an entity are written as they are, whatever fields stand beside them,
and the identity that the server gives to a document is read as it was given.
-/

namespace DocGraph

open Outcome

/-! ## Writing -/

namespace Schema

section

variable [CustomCodecs]

theorem dump_cases {schema : Schema} {entity : Entity} {members : Json.Members}
    (h : schema.dump entity = .ok members) :
    ∃ ends, schema.dumpEndpoints entity entity.identity.members = .ok ends ∧
      schema.dumpRecord entity.record ends = .ok members := by
  obtain ⟨record, hrecord, h⟩ := bind_eq_ok_iff.1 h
  obtain ⟨ends, hends, h⟩ := bind_eq_ok_iff.1 h
  obtain ⟨_, _, hrecord⟩ := bind_eq_ok_iff.1 hrecord
  obtain rfl := Except.ok.inj hrecord
  exact ⟨ends, hends, h⟩

theorem get?_reserved_of_dumpRecord {schema : Schema} (hbuilt : schema.build = .ok schema)
    {entity : Entity} (hextras : entity.HasPlainExtras) {members written : Json.Members}
    (h : schema.dumpRecord entity.record members = .ok written) {name : String}
    (hname : name ∈ reservedAttributes) :
    Assoc.get? name written = Assoc.get? name members :=
  get?_of_dumpRecord h (fun hmem => not_reserved_of_build hbuilt hmem hname)
    fun hmem => hextras name hmem hname

end

theorem resolveEndpoint_eq_ok {side handle : String} {endpoint : Option Endpoint}
    (h : resolveEndpoint side endpoint = .ok handle) : isDocumentHandle handle = true := by
  unfold resolveEndpoint at h
  split at h
  · split at h
    · rename_i hhandle
      obtain rfl := Except.ok.inj h
      exact hhandle
    · simp at h
  · simp at h
  · simp at h

theorem dumpEndpoints_cases {schema : Schema} {entity : Entity} {members ends : Json.Members}
    (h : schema.dumpEndpoints entity members = .ok ends) :
    (schema.isEdge = false ∧ ends = members) ∨
      (schema.isEdge = true ∧ ∃ source target, isDocumentHandle source = true ∧
        isDocumentHandle target = true ∧
        ends = Assoc.insert "_to" (.string target)
          (Assoc.insert "_from" (.string source) members)) := by
  unfold dumpEndpoints at h
  cases hedge : schema.isEdge with
  | false =>
      simp only [hedge] at h
      exact Or.inl ⟨rfl, (Except.ok.inj h).symm⟩
  | true =>
      simp only [hedge, if_true] at h
      obtain ⟨source, hsource, h⟩ := bind_eq_ok_iff.1 h
      obtain ⟨target, htarget, h⟩ := bind_eq_ok_iff.1 h
      exact Or.inr ⟨rfl, source, target, resolveEndpoint_eq_ok hsource,
        resolveEndpoint_eq_ok htarget, (Except.ok.inj h).symm⟩

variable [CustomCodecs]

theorem get?_rev_of_dump {schema : Schema} (hbuilt : schema.build = .ok schema)
    {entity : Entity} (hextras : entity.HasPlainExtras) {members : Json.Members}
    (h : schema.dump entity = .ok members) :
    Assoc.get? "_rev" members = entity.identity.rev.map .string := by
  obtain ⟨ends, hends, hrecord⟩ := dump_cases h
  rw [get?_reserved_of_dumpRecord hbuilt hextras hrecord (by decide)]
  rcases dumpEndpoints_cases hends with ⟨_, rfl⟩ | ⟨_, source, target, _, _, rfl⟩
  · simp [Identity.get?_members]
  · rw [Assoc.get?_insert_of_ne (by decide), Assoc.get?_insert_of_ne (by decide)]
    simp [Identity.get?_members]

theorem hasHandle_of_dump {schema : Schema} (hbuilt : schema.build = .ok schema)
    (hedge : schema.isEdge = true) {entity : Entity} (hextras : entity.HasPlainExtras)
    {members : Json.Members} (h : schema.dump entity = .ok members) :
    StoredDatabase.hasHandle members "_from" = true ∧
      StoredDatabase.hasHandle members "_to" = true := by
  obtain ⟨ends, hends, hrecord⟩ := dump_cases h
  rcases dumpEndpoints_cases hends with ⟨hdocument, _⟩ | ⟨_, source, target, hsource, htarget, rfl⟩
  · simp [hedge] at hdocument
  · constructor
    · unfold StoredDatabase.hasHandle
      rw [get?_reserved_of_dumpRecord hbuilt hextras hrecord (by decide),
        Assoc.get?_insert_of_ne (by decide), Assoc.get?_insert_self]
      exact hsource
    · unfold StoredDatabase.hasHandle
      rw [get?_reserved_of_dumpRecord hbuilt hextras hrecord (by decide),
        Assoc.get?_insert_self]
      exact htarget

end Schema

/-! ## Reading -/

namespace Schema

open StoredDatabase

theorem identityAttribute_of_get? {members : Json.Members} {name text : String}
    (h : Assoc.get? name members = some (.string text)) :
    identityAttribute members name = .ok (some text) := by
  simp [identityAttribute, h]

variable [CustomCodecs]

/-- A document that has an identity is loaded with it. -/
theorem identity_of_load {schema : Schema} {document : Json.Members} {loaded : Drawn Entity}
    (h : schema.load document = .ok loaded) {id key rev : String}
    (hidentified : Identified document id key rev) (moment : Moment) :
    (loaded moment).identity = ⟨some key, some id, some rev⟩ := by
  obtain ⟨record, ⟨key', id', rev'⟩, _, hkey, hid, hrev, _, hidentity, _, _⟩ :=
    load_cases h moment
  rw [identityAttribute_of_get? hidentified.key] at hkey
  rw [identityAttribute_of_get? hidentified.id] at hid
  rw [identityAttribute_of_get? hidentified.rev] at hrev
  simp only [Except.ok.injEq] at hkey hid hrev
  rw [hidentity, hkey, hid, hrev]

theorem hasPlainExtras_of_load {schema : Schema} (hkind : schema.kind ≠ .embedded)
    {document : Json.Members} {loaded : Drawn Entity} (h : schema.load document = .ok loaded)
    (moment : Moment) : (loaded moment).HasPlainExtras := by
  obtain ⟨record, identity, hload, _, _, _, hrecord, _⟩ := load_cases h moment
  obtain ⟨slots, extras, _, hextras, rfl⟩ := loadRecord_cases hload
  intro name hname hreserved
  rw [hrecord] at hname
  obtain ⟨hplain, _⟩ := loadExtras_keys hextras name hname
  rw [(isIdentity_iff hkind).2 hreserved] at hplain
  simp at hplain

end Schema

namespace Collection

open StoredDatabase

theorem identityOf_identified {document : Json.Members} {id key rev : String}
    (h : Identified document id key rev) :
    identityOf (.object (identityMembers document)) = .ok ⟨some key, some id, some rev⟩ := by
  rw [identityMembers_of_identified h]
  rfl

theorem identityOf_replaced {document : Json.Members} {id key rev : String}
    (h : Identified document id key rev) (oldRev : Json) :
    identityOf (.object (Assoc.insert "_oldRev" oldRev (identityMembers document))) =
      .ok ⟨some key, some id, some rev⟩ := by
  rw [identityMembers_of_identified h]
  rfl

end Collection

end DocGraph
