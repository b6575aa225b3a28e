import DocGraph.Proofs.Client.Refused
import DocGraph.Proofs.Server.Handle
/-!
# Requests reach the documents they are about

A collection asks for a document by a path made of three names, of a database, a collection and a
key.  Whatever characters these names hold, the server finds just these names in the path again,
and hands the request to the operation on that one document.
-/

namespace DocGraph

open Outcome StoredDatabase

/-! ## Requests about documents -/

inductive DocumentRequest where
  | create (body : Json.Members)
  | read (key : String)
  | replace (key : String) (members : Json.Members)
  | delete (key : String)

namespace DocumentRequest

def request (collection : Collection) : DocumentRequest → Request
  | create body => ⟨.post, collection.documentPath none, [], some (.object body)⟩
  | read key => collection.readRequest key
  | replace key members => collection.updateRequest key members
  | delete key => .plain .delete (collection.documentPath (some key))

def key? : DocumentRequest → Option String
  | create body => (Assoc.get? "_key" body).bind Json.asString?
  | read key | replace key _ | delete key => some key

def ruling (asked : DocumentRequest) (database : StoredDatabase) (fresh name : String) :
    Ruling (Granted StoredDatabase) :=
  match asked with
  | create body => database.createDocument fresh name (some (.object body))
  | read key => database.readDocument name key
  | replace key members =>
    database.replaceDocument fresh name key (some (.object (Assoc.erase "_id" members))) true
  | delete key => database.deleteDocument name key

/-- What becomes of a request by the ruling about it: a write takes a fresh revision. -/
def settle (asked : DocumentRequest) (server : Server) (name : String)
    (ruling : Ruling (Granted StoredDatabase)) : Server.Outcome :=
  match asked with
  | create _ | replace .. => server.settleWrite name ruling
  | read _ | delete _ => server.settle (server.within name ruling)

def outcome (asked : DocumentRequest) (collection : Collection) (server : Server)
    (fresh : String) : Server.Outcome :=
  match server.databases.get? collection.database.config.database with
  | none => server.settle (.error .databaseNotFound)
  | some database =>
    asked.settle server collection.database.config.database
      (asked.ruling database fresh collection.name)

/-- The places that a request is about: one document, or one collection when the key is left
open. -/
def Concerns (asked : DocumentRequest) (collection : Collection) (place : Place) : Prop :=
  place.database = collection.database.config.database ∧ place.collection = collection.name ∧
    ∀ key, asked.key? = some key → place.key = key

/-- What a call on an entity asks: all but the creation go by the key of the entity. -/
inductive IsFor (entity : Entity) : EntityCall → DocumentRequest → Prop where
  | create (body : Json.Members) : IsFor entity .create (.create body)
  | update {key : String} (hkey : entity.identity.key = some key) (members : Json.Members) :
      IsFor entity .update (.replace key members)
  | refresh {key : String} (hkey : entity.identity.key = some key) (moment : Moment) :
      IsFor entity (.refresh moment) (.read key)
  | delete {key : String} (hkey : entity.identity.key = some key) :
      IsFor entity .delete (.delete key)

/-! ## What is asked -/

section Sent

variable {σ : Type} {answer : σ → Request → Answer × σ} {transport : σ} {collection : Collection}

theorem mem_sent_askOnce {α β γ : Type} {entity : Entity} {plan : Except Error β}
    {request : β → Request} {reply : β → Answer → Except Error γ} {take : γ → α × Entity}
    {asked : Request} (h : asked ∈ (askOnce entity plan request reply take).sent answer transport) :
    ∃ b, plan = .ok b ∧ asked = request b := by
  cases plan with
  | error error => simp [askOnce, Exchange.sent] at h
  | ok b => exact ⟨b, rfl, by simpa [askOnce, Exchange.sent] using h⟩

variable [CustomCodecs]

theorem sent_get (key : String) :
    (collection.get key).run.sent answer transport = [(read key).request collection] := by
  rw [Collection.run_get]
  rfl

/-- Whatever a call asks, it asks about the document of its entity. -/
theorem exists_of_mem_sent (call : EntityCall) {entity : Entity} {asked : Request}
    (h : asked ∈ ((call.client collection).about entity).sent answer transport) :
    ∃ document : DocumentRequest, asked = document.request collection ∧
      document.IsFor entity call := by
  cases call with
  | create =>
      obtain ⟨plan, hplan, rfl⟩ := mem_sent_askOnce (collection.about_create entity ▸ h)
      obtain ⟨_, _, hplan⟩ := bind_eq_ok_iff.1 hplan
      obtain ⟨_, _, hplan⟩ := bind_eq_ok_iff.1 hplan
      obtain ⟨body, _, hplan⟩ := bind_eq_ok_iff.1 hplan
      obtain rfl := Except.ok.inj hplan
      exact ⟨.create body, rfl, .create body⟩
  | update =>
      obtain ⟨plan, hplan, rfl⟩ := mem_sent_askOnce (collection.about_update entity ▸ h)
      have husable := Collection.usableKey_of_planUpdate hplan
      obtain ⟨_, _, hkey⟩ := Collection.usableKey_eq_ok_iff.1 husable
      exact ⟨.replace plan.1 plan.2, rfl, .update hkey plan.2⟩
  | refresh moment =>
      obtain ⟨key, husable, rfl⟩ := mem_sent_askOnce (collection.about_refresh moment entity ▸ h)
      obtain ⟨_, _, hkey⟩ := Collection.usableKey_eq_ok_iff.1 husable
      exact ⟨.read key, rfl, .refresh hkey moment⟩
  | delete =>
      obtain ⟨key, husable, rfl⟩ := mem_sent_askOnce (collection.about_delete entity ▸ h)
      obtain ⟨_, _, hkey⟩ := Collection.usableKey_eq_ok_iff.1 husable
      exact ⟨.delete key, rfl, .delete hkey⟩

end Sent

/-! ## What is answered -/

variable (asked : DocumentRequest) (collection : Collection)

theorem path_request :
    (asked.request collection).path = Http.apiPath collection.database.config.database
      (["document", collection.name] ++ match asked with
        | create _ => []
        | read key | replace key _ | delete key => [key]) := by
  cases asked <;> rfl

theorem handle_request (server : Server) (fresh : String) :
    server.handle fresh (asked.request collection) = asked.outcome collection server fresh := by
  rw [Server.handle_apiPath server fresh _ _ (asked.path_request collection), outcome]
  cases server.databases.get? collection.database.config.database with
  | none => rfl
  | some database => cases asked <;> rfl

theorem document?_of_ruling {asked : DocumentRequest} {database : StoredDatabase}
    {fresh name : String} {granted : Granted StoredDatabase}
    (hgranted : asked.ruling database fresh name = .ok granted) {other key : String}
    (happart : ¬ (other = name ∧ ∀ named, asked.key? = some named → key = named)) :
    granted.state.document? other key = database.document? other key := by
  cases asked with
  | create body =>
      obtain ⟨members, stored, chosen, _, hbody, hstored, _, hkey, rfl⟩ :=
        createDocument_granted hgranted
      obtain rfl := Json.object.inj (Option.some.inj hbody)
      obtain ⟨_, _, hnamed⟩ := chooseKey_eq_ok hkey
      refine (files_of_insert hstored rfl other key).trans (if_neg ?_)
      rintro ⟨hother, rfl⟩
      refine happart ⟨hother, fun named hasked => hnamed named ?_⟩
      obtain ⟨json, hjson, hstring⟩ := Option.bind_eq_some_iff.1 hasked
      obtain rfl := Json.eq_string_of_asString? hstring
      exact hjson
  | read =>
      rw [(readDocument_eq_ok hgranted).1]
  | replace named members =>
      obtain ⟨_, _, _, _, _, _, hfiles⟩ := replaceDocument_eq_ok hgranted
      refine (hfiles other key).trans (if_neg ?_)
      rintro ⟨hother, rfl⟩
      exact happart ⟨hother, fun _ hasked => Option.some.inj hasked⟩
  | delete named =>
      refine (deleteDocument_eq_ok hgranted other key).trans (if_neg ?_)
      rintro ⟨hother, rfl⟩
      exact happart ⟨hother, fun _ hasked => Option.some.inj hasked⟩

theorem server_settle (server : Server) (name : String)
    (ruling : Ruling (Granted StoredDatabase)) :
    (asked.settle server name ruling).server =
      (server.settle (server.within name ruling)).server := by
  cases asked <;> rfl

theorem response_settle (server : Server) (name : String)
    (ruling : Ruling (Granted StoredDatabase)) :
    (asked.settle server name ruling).response =
      (server.settle (server.within name ruling)).response := by
  cases asked <;> rfl

theorem documentAt?_outcome {asked : DocumentRequest} {collection : Collection} {place : Place}
    (hplace : ¬ asked.Concerns collection place) (server : Server) (fresh : String) :
    (asked.outcome collection server fresh).server.documentAt? place =
      server.documentAt? place := by
  unfold outcome
  cases hdatabase : server.databases.get? collection.database.config.database with
  | none => rfl
  | some database =>
      dsimp only
      rw [server_settle]
      cases hruling : asked.ruling database fresh collection.name with
      | error refusal => rfl
      | ok granted =>
          refine (Server.document?_insert server _ granted.state place).trans ?_
          split
          · rename_i hname
            rw [document?_of_ruling hruling fun h => hplace ⟨hname, h⟩, Server.documentAt?, hname,
              Server.document?_of_database hdatabase]
          · rfl

/-- What a collection asks is asked about the document that was named, and about no other: the
names can be read off the path again, whatever characters they hold, and the server hands the
request to the operation on this document, which leaves all others alone. -/
theorem addressed_as_named [CustomCodecs] (collection : Collection) :
    (∀ database segments,
      Http.parsePath? (Http.apiPath database segments) = some (database, segments)) ∧
    Function.Injective2 Http.apiPath ∧
    (∀ {σ : Type} (answer : σ → Request → Answer × σ) (transport : σ),
      (∀ key, (collection.get key).run.sent answer transport = [(read key).request collection]) ∧
      ∀ (call : EntityCall) (entity : Entity),
        ∀ request ∈ ((call.client collection).about entity).sent answer transport,
          ∃ asked : DocumentRequest, request = asked.request collection ∧
            asked.IsFor entity call) ∧
    ∀ (asked : DocumentRequest) (server : Server) (fresh : String),
      server.handle fresh (asked.request collection) = asked.outcome collection server fresh ∧
      ∀ place, ¬ asked.Concerns collection place →
        (server.handle fresh (asked.request collection)).server.documentAt? place =
          server.documentAt? place := by
  refine ⟨Http.parsePath?_apiPath, Http.apiPath_injective2, fun answer transport => ?_,
    fun asked server fresh => ?_⟩
  · exact ⟨sent_get, fun call entity request hrequest => exists_of_mem_sent call hrequest⟩
  · refine ⟨handle_request asked collection server fresh, fun place hplace => ?_⟩
    rw [handle_request]
    exact documentAt?_outcome hplace server fresh

end DocumentRequest

end DocGraph
