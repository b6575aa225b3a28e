import DocGraph.Proofs.World.Sound
import DocGraph.Proofs.World.Writes
/-!
# Calls and what they come to

A call on an entity that succeeds has stored or read a document, and the entity has taken over the
identity of that document.  A call that updates an entity has found the revision that the entity
knew.
-/

namespace DocGraph

open Outcome StoredDatabase

variable {draw : Nat → String}

namespace Store

theorem documentPath_none (store : Store) :
    store.collection.documentPath none =
      Http.apiPath store.collection.database.config.database
        ["document", store.collection.name] := rfl

theorem handle_update (store : Store) (server : Server) (fresh key : String)
    (members : Json.Members) :
    server.handle fresh (store.collection.updateRequest key members) =
      match server.databases.get? store.collection.database.config.database with
      | none => server.settle (.error .databaseNotFound)
      | some database => server.settleWrite store.collection.database.config.database
          (database.replaceDocument fresh store.collection.name key
            (some (.object (Assoc.erase "_id" members))) true) :=
  DocumentRequest.handle_request (.replace key members) store.collection server fresh

variable [CustomCodecs]

/-! ## Reading -/

theorem entityFrom_eq_ok {store : Store} {key : String} {host : Host} {fresh : Drawn Entity}
    (h : store.collection.entityFrom key
      (host.answerFrom draw (store.collection.readRequest key)).1 = .ok fresh) :
    ∃ document, (host.answerFrom draw (store.collection.readRequest key)).2.server.documentAt?
        (store.place key) = some document ∧
      store.collection.schema.load document = .ok fresh := by
  obtain ⟨body, hbody, h⟩ := bind_eq_ok_iff.1 h
  obtain ⟨members, hmembers, hload⟩ := bind_eq_ok_iff.1 h
  obtain ⟨database, granted, _, hgranted, hresponse, hafter⟩ :=
    DocumentRequest.granted_of_received (.read key) hbody
  obtain ⟨hstate, document, hdocument, hanswer⟩ := readDocument_eq_ok hgranted
  have hbodyEq : body = .object document := by rw [hresponse, hanswer]
  rw [hbodyEq] at hmembers
  obtain rfl := Except.ok.inj hmembers
  refine ⟨document, ?_, hload⟩
  refine (congrArg (Server.documentAt? · (store.place key)) hafter).trans ?_
  rw [Server.document?_insert, hstate]
  exact (if_pos rfl).trans hdocument

theorem load_eq_ok {store : Store} {host : Host} (hsound : host.Sound draw) {place : Place}
    {document : Json.Members} (hdocument : host.server.documentAt? place = some document)
    {fresh : Drawn Entity} (h : store.collection.schema.load document = .ok fresh)
    (moment : Moment) :
    (fresh moment).HasPlainExtras ∧ ∃ id rev, Identified document id place.key rev ∧
      (fresh moment).identity = ⟨some place.key, some id, some rev⟩ := by
  obtain ⟨n, _, hidentified⟩ := hsound.identified place document hdocument
  exact ⟨Schema.hasPlainExtras_of_load store.stored h moment, _, _, hidentified,
    Schema.identity_of_load h hidentified moment⟩

theorem refresh_eq_ok {store : Store} {moment : Moment} {entity after : Entity}
    {host next : Host}
    (h : ((store.collection.refresh moment).about entity).run (Host.answerFrom draw) host =
      ((.ok (), after), next)) :
    ∃ key document fresh, store.collection.usableKey entity = .ok key ∧
      next.server.documentAt? (store.place key) = some document ∧
      store.collection.schema.load document = .ok fresh ∧
      after = { fresh moment with state := .persisted } := by
  rw [Collection.about_refresh] at h
  obtain ⟨key, fresh, hkey, hfresh, hafter, hnext⟩ := run_askOnce_eq_ok h
  obtain ⟨document, hdocument, hload⟩ := entityFrom_eq_ok hfresh
  rw [← hnext] at hdocument
  exact ⟨key, document, fresh, hkey, hdocument, hload, hafter⟩

/-! ## Creating -/

theorem planCreate_eq_ok {store : Store} {entity : Entity} {plan : String × Request}
    (h : store.collection.planCreate entity = .ok plan) :
    ∃ body, plan.2 =
      ⟨.post, store.collection.documentPath none, [], some (.object body)⟩ := by
  obtain ⟨_, _, h⟩ := bind_eq_ok_iff.1 h
  obtain ⟨_, _, h⟩ := bind_eq_ok_iff.1 h
  obtain ⟨body, _, h⟩ := bind_eq_ok_iff.1 h
  exact ⟨body, congrArg Prod.snd (Except.ok.inj h).symm⟩

theorem create_eq_ok {store : Store} {entity after : Entity} {host next : Host}
    {identity : Identity}
    (h : (store.collection.create.about entity).run (Host.answerFrom draw) host =
      ((.ok identity, after), next)) :
    ∃ key id rev document, next.server.documentAt? (store.place key) = some document ∧
      Identified document id key rev ∧
      after = entity.markPersisted ⟨some key, some id, some rev⟩ := by
  obtain ⟨_, body, key, rev, _, _, hfiles, hafter⟩ := Collection.writes_of_create h
  exact ⟨key, _, rev, _, (hfiles _).trans (if_pos rfl), identified_withIdentity body _ key rev,
    hafter⟩

/-! ## Updating -/

theorem get?_rev_sent {store : Store} {entity : Entity} (hextras : entity.HasPlainExtras)
    {members : Json.Members} (hdump : store.collection.schema.dump entity = .ok members)
    {rev : String} (hrev : entity.identity.rev = some rev) :
    Assoc.get? "_rev" (Assoc.erase "_id" members) = some (.string rev) := by
  rw [Assoc.get?_erase_of_ne (by decide),
    Schema.get?_rev_of_dump store.built hextras hdump, hrev]
  rfl

theorem update_eq_ok {store : Store} {entity after : Entity} {host next : Host}
    {identity : Identity} (hsound : host.Sound draw) (hextras : entity.HasPlainExtras)
    (hknown : entity.IsLive → ∃ rev, entity.identity.rev = some rev)
    (h : (store.collection.update.about entity).run (Host.answerFrom draw) host =
      ((.ok identity, after), next)) :
    ∃ key current, entity.IsLive ∧ entity.identity.key = some key ∧
      host.server.documentAt? (store.place key) = some current ∧
      Assoc.get? "_rev" current = entity.identity.rev.map .string ∧
      ∃ id rev document, Server.Files host.server next.server (store.place key) document ∧
        Identified document id key rev ∧
        after = entity.markPersisted ⟨some key, some id, some rev⟩ := by
  rw [Collection.about_update] at h
  obtain ⟨⟨key, members⟩, adopted, hplan, hidentity, hafter, hnext⟩ := run_askOnce_eq_ok h
  obtain ⟨body, hbody, hread⟩ := bind_eq_ok_iff.1 hidentity
  obtain ⟨hlive, hkey, hdump⟩ := Collection.planUpdate_eq_ok hplan
  obtain ⟨known, hrev⟩ := hknown hlive
  obtain ⟨database, granted, hdatabase, hgranted, hresponse, hstate⟩ :=
    DocumentRequest.granted_of_received (.replace key members) hbody
  obtain ⟨sent, current, hsent, hcurrent, hchecked, hanswer, hfiles⟩ :=
    replaceDocument_eq_ok hgranted
  obtain rfl := Json.object.inj (Option.some.inj hsent)
  have hplace : host.server.documentAt? (store.place key) = some current :=
    (Server.document?_of_database hdatabase _ _).trans hcurrent
  obtain ⟨n, _, hcurrentIdentified⟩ := hsound.identified _ current hplace
  -- The body carries the revision that the entity knew, and the check found no other.
  have hrevChecked := hchecked rfl
  rw [checkRev_eq (get?_rev_sent hextras hdump hrev) hcurrentIdentified.rev] at hrevChecked
  have hsame : draw n = known := by
    by_contra hne
    rw [if_neg hne] at hrevChecked
    simp at hrevChecked
  have hidentified := identified_withIdentity (Assoc.erase "_id" members)
    store.collection.name key (draw (host.revisions + 1))
  rw [hresponse, hanswer, Collection.identityOf_replaced hidentified] at hread
  obtain rfl := Except.ok.inj hread
  refine ⟨key, current, hlive, hkey, hplace, ?_, _, _, _, ?_, hidentified, hafter⟩
  · rw [hcurrentIdentified.rev, hrev, hsame]
    rfl
  · rw [(congrArg Host.server hnext).trans hstate]
    exact Server.files_insert hdatabase hfiles

/-! ## Updates that are refused -/

/-- A collection on the server has the type that a store asks for. -/
def Fits (store : Store) (server : Server) : Prop :=
  ∀ database stored,
    server.databases.get? store.collection.database.config.database = some database →
    database.collections.get? store.collection.name = some stored →
    store.collection.schema.kind.collectionType? = some stored.type

theorem checkEdge_sent {store : Store} {entity : Entity} (hextras : entity.HasPlainExtras)
    {members : Json.Members} (hdump : store.collection.schema.dump entity = .ok members)
    {stored : StoredCollection}
    (htype : store.collection.schema.kind.collectionType? = some stored.type) :
    checkEdge stored (Assoc.erase "_id" members) = .ok () := by
  unfold checkEdge
  rw [if_neg]
  rintro ⟨hedge, hhandles⟩
  have hisEdge : store.collection.schema.isEdge = true := by
    rw [hedge] at htype
    unfold Schema.isEdge
    cases hkind : store.collection.schema.kind with
    | edge => rfl
    | document => simp [hkind, SchemaKind.collectionType?] at htype
    | embedded => exact absurd hkind store.stored
  obtain ⟨hsource, htarget⟩ := Schema.hasHandle_of_dump store.built hisEdge hextras hdump
  simp only [hasHandle] at hsource htarget
  simp only [hasHandle, Assoc.get?_erase_of_ne (show "_id" ≠ "_from" by decide),
    Assoc.get?_erase_of_ne (show "_id" ≠ "_to" by decide), hsource, htarget] at hhandles
  simp at hhandles

theorem run_update_of_refused {store : Store} {entity : Entity} {host : Host} {key : String}
    {members : Json.Members} (hplan : store.collection.planUpdate entity = .ok (key, members))
    (hfailures : host.failures = []) {refusal : Refusal}
    (hrefused : host.server.handle (draw (host.revisions + 1))
      (store.collection.updateRequest key members) = host.server.settle (.error refusal))
    {error : Error}
    (herror : refusal.response.check (store.collection.handle key) = .error error) :
    (store.collection.update.about entity).run (Host.answerFrom draw) host =
      ((.error error, entity), host) := by
  have hanswer : host.answerFrom draw (store.collection.updateRequest key members) =
      (.ok refusal.response, host) := by
    obtain ⟨server, failures, revisions⟩ := host
    obtain rfl : failures = [] := hfailures
    unfold Host.answerFrom
    dsimp only at hrefused ⊢
    rw [hrefused]
    rfl
  rw [Collection.about_update, run_askOnce_of_ok hplan]
  dsimp only
  rw [hanswer]
  simp only [Collection.identityFrom, Client.received, herror, error_bind]
  rfl

section Refused

variable {store : Store} {entity : Entity} {host : Host} {key : String} {members : Json.Members}

theorem update_of_missing (hplan : store.collection.planUpdate entity = .ok (key, members))
    (hfailures : host.failures = []) (hextras : entity.HasPlainExtras)
    (hfits : store.Fits host.server)
    (hmissing : host.server.documentAt? (store.place key) = none) :
    ∃ cause, (store.collection.update.about entity).run (Host.answerFrom draw) host =
      ((.error (.notFound (store.collection.handle key) cause), entity), host) := by
  obtain ⟨_, _, hdump⟩ := Collection.planUpdate_eq_ok hplan
  have hrefused : ∃ refusal : Refusal, refusal.describe.1 = 404 ∧
      host.server.handle (draw (host.revisions + 1)) (store.collection.updateRequest key members) =
        host.server.settle (.error refusal) := by
    rw [handle_update]
    cases hdatabase : host.server.databases.get? store.collection.database.config.database with
    | none => exact ⟨.databaseNotFound, rfl, rfl⟩
    | some database =>
        have hdocument : database.document? store.collection.name key = none :=
          (Server.document?_of_database hdatabase _ _).symm.trans hmissing
        have hedge : ∀ stored, database.collections.get? store.collection.name = some stored →
            checkEdge stored (Assoc.erase "_id" members) = .ok () := fun stored hstored =>
          checkEdge_sent hextras hdump (hfits database stored hdatabase hstored)
        obtain ⟨refusal, hreplace, hreason⟩ := replaceDocument_of_missing hedge hdocument
        refine ⟨refusal, ?_, ?_⟩
        · rcases hreason with rfl | rfl <;> rfl
        · dsimp only
          rw [hreplace]
          rfl
  obtain ⟨refusal, hstatus, hrefused⟩ := hrefused
  obtain ⟨cause, hcheck⟩ := Refusal.check_of_not_found hstatus (store.collection.handle key)
  exact ⟨cause, run_update_of_refused hplan hfailures hrefused hcheck⟩

theorem update_of_conflict (hplan : store.collection.planUpdate entity = .ok (key, members))
    (hfailures : host.failures = []) (hextras : entity.HasPlainExtras)
    (hfits : store.Fits host.server) {known : String} (hknown : entity.identity.rev = some known)
    {current : Json.Members} {id rev : String}
    (hcurrent : host.server.documentAt? (store.place key) = some current)
    (hidentified : Identified current id key rev) (hne : rev ≠ known) :
    ∃ cause, (store.collection.update.about entity).run (Host.answerFrom draw) host =
      ((.error (.conflict (store.collection.handle key) (some rev) cause), entity), host) := by
  obtain ⟨_, _, hdump⟩ := Collection.planUpdate_eq_ok hplan
  have hrefused : host.server.handle (draw (host.revisions + 1))
      (store.collection.updateRequest key members) =
        host.server.settle (.error (.revisionConflict current)) := by
    rw [handle_update]
    cases hdatabase : host.server.databases.get? store.collection.database.config.database with
    | none => simp [Server.documentAt?, Server.document?, place, hdatabase] at hcurrent
    | some database =>
        have hdocument : database.document? store.collection.name key = some current :=
          (Server.document?_of_database hdatabase _ _).symm.trans hcurrent
        have hedge : ∀ stored, database.collections.get? store.collection.name = some stored →
            checkEdge stored (Assoc.erase "_id" members) = .ok () := fun stored hstored =>
          checkEdge_sent hextras hdump (hfits database stored hdatabase hstored)
        have hrev : checkRev current (Assoc.erase "_id" members) =
            .error (.revisionConflict current) := by
          rw [checkRev_eq (get?_rev_sent hextras hdump hknown) hidentified.rev, if_neg hne]
        dsimp only
        rw [replaceDocument_of_conflict hedge hdocument hrev]
        rfl
  obtain ⟨cause, hcheck⟩ := Refusal.check_of_conflict hidentified (store.collection.handle key)
  exact ⟨cause, run_update_of_refused hplan hfailures hrefused hcheck⟩

end Refused

end Store

end DocGraph
