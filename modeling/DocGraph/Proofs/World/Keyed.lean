import DocGraph.Proofs.Record.Key
import DocGraph.Proofs.World.Writes
/-!
# Documents under computed keys

A computed key is made of safe characters and escapes and is not too long, which is what the server
asks of a key, except that the server wants it to have some text.  So the server refuses no computed
key for its form but one: that of a record whose only key field says the empty text.
-/

namespace DocGraph

open Outcome StoredDatabase

variable {draw : Nat → String}

/-! ## Refused keys -/

/-- What a client is told whose document has a key that the server does not take. -/
def Error.unusableKey : Error := .transport (.api ⟨400, 1227, "invalid document key"⟩)

namespace Refusal

theorem apiError_response {refusal : Refusal}
    (h : ∀ current, refusal ≠ .revisionConflict current) :
    refusal.response.apiError =
      ⟨refusal.describe.1, refusal.describe.2.1, refusal.describe.2.2⟩ := by
  cases refusal with
  | revisionConflict current => exact absurd rfl (h current)
  | _ => decide +kernel

theorem check_eq_unusableKey_iff {refusal : Refusal} {what : String} :
    refusal.response.check what = .error .unusableKey ↔ refusal = .invalidKey := by
  unfold Response.check Error.unusableKey
  rw [if_neg (by simp [isSuccess_response])]
  dsimp only
  cases refusal with
  | revisionConflict current =>
      -- the text of a conflict is not known, but its code tells it apart
      rw [apiError_code]
      simp [describe]
  | _ =>
      rw [apiError_response (by simp)]
      simp [describe]

end Refusal

namespace StoredDatabase

variable {database : StoredDatabase} {stored : StoredCollection} {fresh name key : String}
  {members body : Json.Members}

theorem checkEdge_congr
    (hfrom : Assoc.get? "_from" body = Assoc.get? "_from" members)
    (hto : Assoc.get? "_to" body = Assoc.get? "_to" members) :
    checkEdge stored body = checkEdge stored members := by
  unfold checkEdge hasHandle
  rw [hfrom, hto]

theorem collection_eq_error_iff {refusal : Refusal} :
    database.collection name = .error refusal ↔
      database.collections.get? name = none ∧ refusal = .collectionNotFound := by
  unfold collection
  cases database.collections.get? name <;> simp [eq_comm]

theorem checkEdge_ne_invalidKey : checkEdge stored members ≠ .error .invalidKey := by
  unfold checkEdge
  split <;> simp

theorem chooseKey_eq_invalidKey_iff (hkey : Assoc.get? "_key" members = some (.string key)) :
    database.chooseKey stored members = .error .invalidKey ↔ key = "" := by
  unfold chooseKey
  rw [hkey]
  dsimp only
  split
  · simpa
  · rename_i hsome
    split <;> simp [hsome]

theorem createDocument_eq_invalidKey_iff
    (hkey : Assoc.get? "_key" members = some (.string key)) :
    database.createDocument fresh name (some (.object members)) = .error .invalidKey ↔
      key = "" ∧ ∃ stored, database.collections.get? name = some stored ∧
        checkEdge stored members = .ok () := by
  unfold createDocument documentBody
  rw [ok_bind]
  constructor
  · intro h
    rcases bind_eq_error_iff.1 h with hmissing | ⟨stored, hstored, h⟩
    · simp [collection_eq_error_iff] at hmissing
    rcases bind_eq_error_iff.1 h with hedge | ⟨_, hedge, h⟩
    · exact absurd hedge checkEdge_ne_invalidKey
    rcases bind_eq_error_iff.1 h with hchosen | ⟨_, _, h⟩
    · exact ⟨(chooseKey_eq_invalidKey_iff hkey).1 hchosen, stored, collection_eq_ok hstored, hedge⟩
    · simp [grant] at h
  · rintro ⟨hempty, stored, hstored, hedge⟩
    have hcollection : database.collection name = .ok stored := by
      unfold collection
      rw [hstored]
    rw [hcollection, ok_bind, hedge, ok_bind, (chooseKey_eq_invalidKey_iff hkey).2 hempty,
      error_bind]

end StoredDatabase

/-! ## Creation under a computed key -/

theorem conclude_eq_error_iff {α γ : Type} {entity : Entity} {take : γ → α × Entity}
    {result : Except Error γ} {error : Error} :
    (conclude entity take result).1 = .error error ↔ result = .error error := by
  cases result <;> simp [conclude]

/-- The collection is there, and the document would be in its place in it. -/
def Server.Houses (server : Server) (collection : Collection) (members : Json.Members) : Prop :=
  ∃ database stored, server.databases.get? collection.database.config.database = some database ∧
    database.collections.get? collection.name = some stored ∧ checkEdge stored members = .ok ()

theorem Server.houses_congr {server : Server} {collection : Collection}
    {body members : Json.Members} (h : StandsFor body members) :
    server.Houses collection body ↔ server.Houses collection members := by
  have hedge (stored : StoredCollection) : checkEdge stored body = checkEdge stored members :=
    checkEdge_congr (h.get? "_from" (by decide)) (h.get? "_to" (by decide))
  simp only [Houses, hedge]

theorem DocumentRequest.received_create_iff {collection : Collection} {host : Host}
    {body : Json.Members} {key what : String}
    (hkey : Assoc.get? "_key" body = some (.string key)) (hfailures : host.failures = []) :
    Client.received what
        (host.answerFrom draw ((DocumentRequest.create body).request collection)).1 =
        .error .unusableKey ↔
      key = "" ∧ host.server.Houses collection body := by
  unfold Host.answerFrom
  rw [hfailures]
  dsimp only [Client.received]
  rw [handle_request, outcome]
  unfold Server.Houses
  cases hdatabase : host.server.databases.get? collection.database.config.database with
  | none =>
      show Refusal.databaseNotFound.response.check what = _ ↔ _
      rw [Refusal.check_eq_unusableKey_iff]
      simp
  | some database =>
      dsimp only
      rw [response_settle, ruling]
      have hgrounds : database.createDocument (draw (host.revisions + 1)) collection.name
          (some (.object body)) = .error .invalidKey ↔ _ := createDocument_eq_invalidKey_iff hkey
      cases hruling : database.createDocument (draw (host.revisions + 1)) collection.name
          (some (.object body)) with
      | error refusal =>
          rw [hruling, Except.error.injEq] at hgrounds
          refine Refusal.check_eq_unusableKey_iff.trans (hgrounds.trans ?_)
          simp
      | ok granted =>
          obtain ⟨_, _, _, _, hresponse, _⟩ := createDocument_eq_ok hruling
          rw [hruling] at hgrounds
          have hcheck : granted.response.check what ≠ .error .unusableKey := by
            rw [hresponse]
            simp [Response.check, Response.isSuccess]
          refine iff_of_false hcheck fun h => ?_
          simp at h
          simpa using hgrounds.2 h

namespace Collection

variable {collection : Collection} {entity : Entity} {members : Json.Members} {key : String}
  {host : Host}

theorem identityFrom_eq_unusableKey_iff {what : String} {answer : Answer} :
    identityFrom what answer = .error .unusableKey ↔
      Client.received what answer = .error .unusableKey := by
  unfold identityFrom identityOf
  rw [bind_eq_error_iff]
  apply or_iff_left
  rintro ⟨body, _, h⟩
  split at h <;> simp [Error.unusableKey] at h

theorem createBody_of_computeKey [CustomCodecs]
    (hdump : collection.schema.dump entity = .ok members)
    (hmissing : Assoc.get? "_key" members = none)
    (hkey : collection.schema.computeKey entity.record = .ok (some key)) :
    collection.createBody entity =
      .ok (Assoc.insert "_key" (.string key) (Assoc.erase "_rev" (Assoc.erase "_id" members))) := by
  have hcontains : Assoc.contains "_key" (Assoc.erase "_rev" (Assoc.erase "_id" members)) =
      false := by
    rw [Assoc.contains_erase_of_ne (by decide), Assoc.contains_erase_of_ne (by decide),
      Assoc.contains, hmissing]
    rfl
  unfold createBody
  rw [hdump, ok_bind]
  dsimp only
  rw [hcontains, hkey]
  rfl

variable [CustomCodecs]

/-- The creation of an entity under its computed key fails for the key exactly if the key is empty
and nothing else is wrong. -/
theorem create_eq_unusableKey_iff (hdump : collection.schema.dump entity = .ok members)
    (hmissing : Assoc.get? "_key" members = none)
    (hkey : collection.schema.computeKey entity.record = .ok (some key))
    (hfailures : host.failures = []) :
    ((collection.create.about entity).run (Host.answerFrom draw) host).1.1 =
        .error .unusableKey ↔
      key = "" ∧ entity.schema.name = collection.name ∧ entity.state = .unbound ∧
        host.server.Houses collection members := by
  have hbody := createBody_of_computeKey hdump hmissing hkey
  obtain ⟨_, hdumped, hstands⟩ := createBody_eq_ok hbody
  obtain rfl := Except.ok.inj (hdump.symm.trans hdumped)
  rw [Collection.about_create]
  cases hplan : collection.planCreate entity with
  | error error =>
      rw [run_askOnce_of_error rfl]
      cases planCreate_eq_error_iff.1 hplan with
      | foreign _ hname =>
          exact iff_of_false (by simp [Error.unusableKey]) fun h => hname h.2.1
      | deleted _ _ hstate =>
          exact iff_of_false (by simp [Error.unusableKey]) fun h => by simp [hstate] at h
      | stored _ hlive =>
          exact iff_of_false (by simp [Error.unusableKey]) fun h => by
            simp [Entity.IsLive, h.2.2.1] at hlive
      | unstored _ hcall => exact absurd rfl hcall
      | unwritable _ _ _ hunwritable => simp [hdump] at hunwritable
      | keyless _ _ _ _ hkeyless => simp [hkey] at hkeyless
  | ok plan =>
      obtain ⟨hname, hstate⟩ := admits_of_planCreate hplan
      obtain ⟨_, _, hplan⟩ := bind_eq_ok_iff.1 hplan
      obtain ⟨_, _, hplan⟩ := bind_eq_ok_iff.1 hplan
      obtain ⟨sent, hsent, hplan⟩ := bind_eq_ok_iff.1 hplan
      obtain rfl := Except.ok.inj hplan
      obtain rfl := Except.ok.inj (hbody.symm.trans hsent)
      have hasked : Assoc.get? "_key" (Assoc.insert "_key" (.string key)
          (Assoc.erase "_rev" (Assoc.erase "_id" members))) = some (.string key) :=
        Assoc.get?_insert_self _ _ _
      rw [run_askOnce_of_ok rfl, conclude_eq_error_iff, identityFrom_eq_unusableKey_iff,
        ← Server.houses_congr hstands]
      simp only [hname, hstate, true_and]
      exact DocumentRequest.received_create_iff hasked hfailures

end Collection

namespace Schema

/-- A computed key has the form of a key and is not too long; it is empty exactly if it is computed
from one field, in which the record says the empty text.  A document that is created under a
computed key is refused for its key exactly if the key is empty, supposing that nothing else is
wrong with the entity, the collection and the ends of an edge. -/
theorem computeKey_usable [CustomCodecs] {schema : Schema} {record : Record} {key : String}
    (hkey : schema.computeKey record = .ok (some key)) :
    Text.Escaped isKeyChar key.toList ∧ key.utf8ByteSize ≤ 254 ∧
    (key = "" ↔ ∃ name, schema.keyFields = [name] ∧ schema.Says record name "") ∧
    ∀ (draw : Nat → String) (database : Database) (host : Host) (entity : Entity)
      (members : Json.Members),
      entity.record = record → schema.dump entity = .ok members →
      Assoc.get? "_key" members = none → host.failures = [] →
      let collection : Collection := ⟨database, schema⟩
      (((collection.create.about entity).run (Host.answerFrom draw) host).1.1 =
          .error .unusableKey ↔
        key = "" ∧ entity.schema.name = collection.name ∧ entity.state = .unbound ∧
          host.server.Houses collection members) := by
  refine ⟨escaped_key hkey, (computeKey_eq_some_iff.1 hkey).2.1, key_eq_empty_iff hkey, ?_⟩
  rintro draw database host entity members rfl hdump hmissing hfailures
  exact Collection.create_eq_unusableKey_iff hdump hmissing hkey hfailures

attribute [local instance] CustomCodecs.none

def hostWith (name : String) : Host :=
  (Host.answerFrom Host.revision ⟨Server.new ["_system"], [], 0⟩
    ⟨.post, Http.apiPath "_system" ["collection"], [],
      some (.ofMembers [("name", .string name)])⟩).2

theorem computeKey_usable_berth :
    berthSchema.computeKey (berth "ø:1" "") = .ok (some "%C3%B8%3A1:") ∧
    Text.Escaped isKeyChar "%C3%B8%3A1:".toList ∧
    let entity := { Entity.new berthSchema .declared with record := berth "ø:1" "" }
    let collection : Collection := ⟨⟨.default, .empty⟩, berthSchema⟩
    ((collection.create.about entity).run (Host.answerFrom Host.revision)
      (hostWith "berths")).1.1 ≠ .error .unusableKey := by
  have hkey : berthSchema.computeKey (berth "ø:1" "") = .ok (some "%C3%B8%3A1:") := by
    decide +kernel
  obtain ⟨hform, -, -, hcreate⟩ := computeKey_usable hkey
  refine ⟨hkey, hform, fun hrefused => ?_⟩
  have hempty := (hcreate _ _ (hostWith "berths") { Entity.new berthSchema .declared with
    record := berth "ø:1" "" } _ rfl rfl (by decide +kernel) (by decide +kernel)).1 hrefused
  simp at hempty

def quaySchema : Schema :=
  ⟨"quays", .document, [⟨"name", .string, true, none, false, none⟩], false, ["name"]⟩

/-- A quay whose name is empty has a computed key, under which it cannot be created. -/
theorem not_computeKey_usable_unnamed :
    let record : Record := ⟨quaySchema, [.held (.string "")], []⟩
    let collection : Collection := ⟨⟨.default, .empty⟩, quaySchema⟩
    let entity := { Entity.new quaySchema .declared with record }
    quaySchema.computeKey record = .ok (some "") ∧ ¬ 1 ≤ "".utf8ByteSize ∧
      ((collection.create.about entity).run (Host.answerFrom Host.revision)
        (hostWith "quays")).1.1 = .error .unusableKey := by
  decide +kernel

end Schema

end DocGraph
