import DocGraph.Proofs.Client.Addressed
import DocGraph.Proofs.Entity.Stored
import DocGraph.Proofs.Server.Refusal
import DocGraph.Proofs.World.Basic
/-!
# What a write leaves behind

Whoever stores an entity sends its dump, without the parts of the identity that are the server's to
choose.  A write that succeeds was granted by the database of its collection: one document was filed
with what was sent, and the entity has taken over the identity of this document.
-/

namespace DocGraph

open Outcome StoredDatabase

variable {draw : Nat → String}

/-! ## Answers of the server -/

theorem Response.check_eq_ok {response : Response} {what : String} {body : Json}
    (h : response.check what = .ok body) : body = response.body := by
  unfold check at h
  split at h
  · exact (Except.ok.inj h).symm
  · dsimp only at h
    split at h
    · simp at h
    · split at h
      · simp at h
      · split at h <;> simp at h

theorem Host.received_answerFrom {host : Host} {request : Request} {what : String} {body : Json}
    (h : Client.received what (host.answerFrom draw request).1 = .ok body) :
    let outcome := host.server.handle (draw (host.revisions + 1)) request
    outcome.response.check what = .ok body ∧
      (host.answerFrom draw request).2.server = outcome.server := by
  unfold answerFrom at h ⊢
  split at h
  · simp [Client.received] at h
  · rename_i hfailures
    exact ⟨h, rfl⟩

theorem DocumentRequest.granted_of_received (asked : DocumentRequest) {collection : Collection}
    {host : Host} {what : String} {body : Json}
    (h : Client.received what (host.answerFrom draw (asked.request collection)).1 = .ok body) :
    ∃ database granted,
      host.server.databases.get? collection.database.config.database = some database ∧
      asked.ruling database (draw (host.revisions + 1)) collection.name = .ok granted ∧
      body = granted.response.body ∧
      (host.answerFrom draw (asked.request collection)).2.server =
        { host.server with databases :=
            host.server.databases.insert collection.database.config.database granted.state } := by
  obtain ⟨hcheck, hserver⟩ := Host.received_answerFrom h
  rw [handle_request, outcome] at hcheck hserver
  rw [hserver]
  cases hdatabase : host.server.databases.get? collection.database.config.database with
  | none =>
      rw [hdatabase] at hcheck
      exact absurd hcheck (Refusal.check_ne_ok _ _ _)
  | some database =>
      rw [hdatabase] at hcheck
      dsimp only at hcheck ⊢
      rw [server_settle]
      rw [response_settle] at hcheck
      cases hruling : asked.ruling database (draw (host.revisions + 1)) collection.name with
      | error refusal =>
          rw [hruling] at hcheck
          exact absurd hcheck (refusal.check_ne_ok what body)
      | ok granted =>
          rw [hruling] at hcheck
          exact ⟨database, granted, rfl, hruling, Response.check_eq_ok hcheck, rfl⟩

/-! ## What is sent -/

/-- A body stands for a dump when the two differ in nothing but the identity. -/
structure StandsFor (body members : Json.Members) : Prop where
  sorted : Assoc.Sorted members → Assoc.Sorted body
  get? : ∀ name ∉ Schema.identityAttributes, Assoc.get? name body = Assoc.get? name members

namespace StandsFor

variable {body members : Json.Members}

theorem refl (members : Json.Members) : StandsFor members members :=
  ⟨fun h => h, fun _ _ => rfl⟩

theorem erase (h : StandsFor body members) {name : String}
    (hname : name ∈ Schema.identityAttributes) : StandsFor (Assoc.erase name body) members := by
  refine ⟨fun hsorted => Assoc.sorted_erase (h.sorted hsorted), fun other hother => ?_⟩
  have hne : name ≠ other := by
    rintro rfl
    exact hother hname
  rw [Assoc.get?_erase_of_ne hne, h.get? other hother]

theorem insert (h : StandsFor body members) {name : String}
    (hname : name ∈ Schema.identityAttributes) (value : Json) :
    StandsFor (Assoc.insert name value body) members := by
  refine ⟨fun hsorted => Assoc.sorted_insert (h.sorted hsorted), fun other hother => ?_⟩
  have hne : name ≠ other := by
    rintro rfl
    exact hother hname
  rw [Assoc.get?_insert_of_ne hne, h.get? other hother]

end StandsFor

variable [CustomCodecs]

theorem Collection.createBody_eq_ok {collection : Collection} {entity : Entity}
    {body : Json.Members} (h : collection.createBody entity = .ok body) :
    ∃ members, collection.schema.dump entity = .ok members ∧ StandsFor body members := by
  obtain ⟨members, hdump, h⟩ := bind_eq_ok_iff.1 h
  have hplain : StandsFor (Assoc.erase "_rev" (Assoc.erase "_id" members)) members :=
    ((StandsFor.refl members).erase (by decide)).erase (by decide)
  refine ⟨members, hdump, ?_⟩
  dsimp only at h
  split at h
  · obtain rfl := Except.ok.inj h
    exact hplain
  · obtain ⟨key?, _, h⟩ := bind_eq_ok_iff.1 h
    cases key? with
    | none =>
        obtain rfl := Except.ok.inj h
        exact hplain
    | some key =>
        obtain rfl := Except.ok.inj h
        exact hplain.insert (by decide) _

/-! ## What is filed -/

namespace Collection

def place (collection : Collection) (key : String) : Place :=
  ⟨collection.database.config.database, collection.name, key⟩

/-- A write of an entity: the server files a document under an identity of its own and with the
contents of the entity, and the entity takes over this identity. -/
def Writes (collection : Collection) (entity after : Entity) (before next : Server) : Prop :=
  ∃ members body key rev, collection.schema.dump entity = .ok members ∧
    StandsFor body members ∧
    Server.Files before next (collection.place key) (withIdentity body collection.name key rev) ∧
    after = entity.markPersisted ⟨some key, some (documentHandle collection.name key), some rev⟩

variable {collection : Collection} {entity after : Entity} {host next : Host} {identity : Identity}

theorem writes_of_create
    (h : (collection.create.about entity).run (Host.answerFrom draw) host =
      ((.ok identity, after), next)) :
    collection.Writes entity after host.server next.server := by
  rw [Collection.about_create] at h
  obtain ⟨plan, adopted, hplan, hidentity, hafter, hnext⟩ := run_askOnce_eq_ok h
  obtain ⟨_, _, hplan⟩ := bind_eq_ok_iff.1 hplan
  obtain ⟨_, _, hplan⟩ := bind_eq_ok_iff.1 hplan
  obtain ⟨sent, hsent, hplan⟩ := bind_eq_ok_iff.1 hplan
  obtain rfl := Except.ok.inj hplan
  obtain ⟨members, hdump, hbody⟩ := Collection.createBody_eq_ok hsent
  obtain ⟨answered, hanswered, hread⟩ := bind_eq_ok_iff.1 hidentity
  obtain ⟨database, granted, hdatabase, hgranted, hresponse, hstate⟩ :=
    DocumentRequest.granted_of_received (.create sent) hanswered
  obtain ⟨filed, key, hfiled, _, hanswer, hfiles⟩ := createDocument_eq_ok hgranted
  obtain rfl := Json.object.inj (Option.some.inj hfiled)
  rw [hresponse, hanswer, Collection.identityOf_identified (identified_withIdentity _ _ _ _)]
    at hread
  obtain rfl := Except.ok.inj hread
  refine ⟨members, sent, key, _, hdump, hbody, ?_, hafter⟩
  rw [(congrArg Host.server hnext).trans hstate]
  exact Server.files_insert hdatabase hfiles

theorem planUpdate_eq_ok {plan : String × Json.Members}
    (h : collection.planUpdate entity = .ok plan) :
    entity.IsLive ∧ entity.identity.key = some plan.1 ∧
      collection.schema.dump entity = .ok plan.2 := by
  obtain ⟨_, _, h⟩ := bind_eq_ok_iff.1 h
  obtain ⟨key, hkey, h⟩ := bind_eq_ok_iff.1 h
  obtain ⟨members, hmembers, h⟩ := bind_eq_ok_iff.1 h
  obtain rfl := Except.ok.inj h
  obtain ⟨hlive, hidentity⟩ := Collection.persistedKey_eq_ok_iff.1 hkey
  exact ⟨hlive, hidentity, hmembers⟩

theorem writes_of_update
    (h : (collection.update.about entity).run (Host.answerFrom draw) host =
      ((.ok identity, after), next)) :
    collection.Writes entity after host.server next.server ∧
      ∃ key, collection.usableKey entity = .ok key ∧ after.identity.key = some key := by
  rw [Collection.about_update] at h
  obtain ⟨⟨key, members⟩, adopted, hplan, hidentity, hafter, hnext⟩ := run_askOnce_eq_ok h
  obtain ⟨_, _, hdump⟩ := planUpdate_eq_ok hplan
  have hkey := Collection.usableKey_of_planUpdate hplan
  obtain ⟨answered, hanswered, hread⟩ := bind_eq_ok_iff.1 hidentity
  obtain ⟨database, granted, hdatabase, hgranted, hresponse, hstate⟩ :=
    DocumentRequest.granted_of_received (.replace key members) hanswered
  obtain ⟨filed, current, hfiled, _, _, hanswer, hfiles⟩ := replaceDocument_eq_ok hgranted
  obtain rfl := Json.object.inj (Option.some.inj hfiled)
  rw [hresponse, hanswer, Collection.identityOf_replaced (identified_withIdentity _ _ _ _)]
    at hread
  obtain rfl := Except.ok.inj hread
  have hbody : StandsFor (Assoc.erase "_id" members) members :=
    (StandsFor.refl members).erase (by decide)
  have hknown : after.identity.key = some key := by
    rw [hafter]
    rfl
  refine ⟨⟨members, _, key, _, hdump, hbody, ?_, hafter⟩, key, hkey, hknown⟩
  rw [(congrArg Host.server hnext).trans hstate]
  exact Server.files_insert hdatabase hfiles

theorem writes_of_write {write : EntityClient Identity}
    (hwrite : write = collection.create ∨ write = collection.update)
    (h : (write.about entity).run (Host.answerFrom draw) host = ((.ok identity, after), next)) :
    collection.Writes entity after host.server next.server := by
  rcases hwrite with rfl | rfl
  · exact writes_of_create h
  · exact (writes_of_update h).1

end Collection

end DocGraph
