import DocGraph.Proofs.Client.Conversation
import DocGraph.Proofs.Server.Catalog
import DocGraph.Proofs.Streams.Poll
/-!
# Making sure of a collection

A client looks a collection up, and creates it when it cannot be found.  Between the two requests
it knows nothing but that the collection was not there.
-/

namespace DocGraph

open Outcome

/-! ## What is asked for a collection -/

theorem Client.run_attempt_send_bind {α : Type} (request : Request) (what : String)
    (next : Except Error Json → Client α) :
    ((send request what).attempt >>= next).run =
      .ask request fun answer => (next (received what answer)).run := by
  rw [ExceptT.run_bind, Host.run_attempt_send]
  rfl

namespace Database

def lookupRequest (database : Database) (name : String) : Request :=
  .plain .get (database.path ["collection", name])

def creationRequest (database : Database) (name : String) (type : CollectionType) : Request :=
  ⟨.post, database.path ["collection"], [], some (StoredDatabase.definitionBody name type)⟩

def checkType (name : String) (type : CollectionType) (body : Json) : Except Error Unit :=
  if StoredCollection.describedType body = type.number then .ok ()
  else .error
    (.collectionType name type.name (typeName (StoredCollection.describedType body)))

def creation (database : Database) (name : String) (type : CollectionType) :
    Exchange (Except Error Unit) :=
  .ask (database.creationRequest name type) fun answer =>
    .done ((Client.received ("collection " ++ name) answer).map fun _ => ())

def afterLookup (database : Database) (name : String) (type : CollectionType) :
    Except Error Json → Exchange (Except Error Unit)
  | .ok body => .done (checkType name type body)
  | .error (.notFound ..) => database.creation name type
  | .error error => .done (.error error)

theorem run_ensureNamed (database : Database) (name : String) (type : CollectionType) :
    (database.ensureNamed name type).run =
      .ask (database.lookupRequest name) fun answer =>
        database.afterLookup name type (Client.received ("collection " ++ name) answer) := by
  unfold ensureNamed
  rw [Client.run_attempt_send_bind]
  refine congrArg (Exchange.ask _) (funext fun answer => ?_)
  cases Client.received ("collection " ++ name) answer with
  | ok body =>
      dsimp only [afterLookup]
      unfold checkType StoredCollection.describedType
      split
      · rfl
      · rename_i hsame
        exact congrArg Exchange.done (if_pos (not_not.1 hsame)).symm
  | error error =>
      cases error with
      | notFound =>
          dsimp only [afterLookup]
          rw [Client.run_send_bind]
          refine congrArg (Exchange.ask _) (funext fun answer => ?_)
          cases Client.received ("collection " ++ name) answer <;> rfl
      | _ => rfl

theorem checkType_describe (name : String) (type : CollectionType) (stored : StoredCollection) :
    checkType name type (stored.describe name) =
      if stored.type = type then .ok ()
      else .error (.collectionType name type.name stored.type.name) := by
  unfold checkType
  rw [StoredCollection.describedType_describe]
  by_cases htype : stored.type = type
  · rw [if_pos htype, if_pos (congrArg _ htype)]
  · rw [if_neg htype, if_neg fun h => htype (CollectionType.number_injective h)]
    cases stored.type <;> rfl

end Database

/-! ## What a server answers -/

namespace StoredDatabase

def lookupResponse (stored : StoredDatabase) (name : String) : Response :=
  match stored.collections.get? name with
  | some found => ⟨200, found.describe name⟩
  | none => Refusal.collectionNotFound.response

def creationResponse (stored : StoredDatabase) (name : String) (type : CollectionType) :
    Response :=
  match stored.collections.get? name with
  | some _ => Refusal.duplicateName.response
  | none => ⟨200, (StoredCollection.created name type).describe name⟩

end StoredDatabase

namespace Host

variable {draw : Nat → String}

def putDatabase (host : Host) (name : String) (stored : StoredDatabase) : Host :=
  { host with
    server := { host.server with databases := host.server.databases.insert name stored } }

theorem putDatabase_eq_self {host : Host} {name : String} {stored : StoredDatabase}
    (h : host.server.databases.get? name = some stored) : host.putDatabase name stored = host := by
  unfold putDatabase
  rw [Table.insert_eq_self h]

@[simp] theorem putDatabase_putDatabase (host : Host) (name : String)
    (stored after : StoredDatabase) :
    (host.putDatabase name stored).putDatabase name after = host.putDatabase name after := by
  have htwice : (host.server.databases.insert name stored).insert name after =
      host.server.databases.insert name after := by
    refine Table.ext_get? fun other => ?_
    rw [Table.get?_insert, Table.get?_insert, Table.get?_insert]
    split <;> rfl
  unfold putDatabase
  rw [htwice]

/-- No failure is ahead, and the database of a name is as given. -/
structure Ready (host : Host) (name : String) (stored : StoredDatabase) : Prop where
  failures : host.failures = []
  known : host.server.databases.get? name = some stored

theorem Ready.putDatabase {host : Host} {name : String} {stored : StoredDatabase}
    (h : host.Ready name stored) (after : StoredDatabase) :
    (host.putDatabase name after).Ready name after :=
  ⟨h.failures, Table.get?_insert_self _ name after⟩

/-- What the client gets of a ruling of one database, and the host after it. -/
def ruled (host : Host) (name : String) : Ruling (Granted StoredDatabase) → Answer × Host
  | .ok granted => (.ok granted.response, host.putDatabase name granted.state)
  | .error refusal => (.ok refusal.response, host)

variable {host : Host} {stored : StoredDatabase} {database : Database}

theorem answerFrom_of_ruling {name : String} (hready : host.Ready name stored)
    {request : Request} {segments : List String} (hpath : request.path = Http.apiPath name segments)
    {ruling : Ruling (Granted StoredDatabase)}
    (hroute : ∀ fresh, host.server.route fresh name stored request segments =
      host.server.settle (host.server.within name ruling)) :
    host.answerFrom draw request = host.ruled name ruling := by
  have hhandle := Server.handle_of_route hready.known hpath (hroute (draw (host.revisions + 1)))
  obtain ⟨server, failures, revisions⟩ := host
  obtain rfl : failures = [] := hready.failures
  unfold answerFrom
  dsimp only at hhandle ⊢
  rw [hhandle]
  cases ruling <;> rfl

theorem answerFrom_lookup (hready : host.Ready database.config.database stored)
    (name : String) :
    host.answerFrom draw (database.lookupRequest name) =
      (.ok (stored.lookupResponse name), host) := by
  rw [answerFrom_of_ruling hready rfl fun _ => rfl, stored.readCollection_eq,
    StoredDatabase.lookupResponse]
  cases stored.collections.get? name with
  | some found => exact Prod.ext rfl (putDatabase_eq_self hready.known)
  | none => rfl

theorem answerFrom_creation (hready : host.Ready database.config.database stored)
    (name : String) (type : CollectionType) :
    host.answerFrom draw (database.creationRequest name type) =
      (.ok (stored.creationResponse name type),
        host.putDatabase database.config.database (stored.ensure name type)) := by
  rw [answerFrom_of_ruling hready rfl fun _ => rfl,
    show (database.creationRequest name type).body =
      some (StoredDatabase.definitionBody name type) from rfl, stored.createCollection_eq,
    StoredDatabase.creationResponse]
  cases hname : stored.collections.get? name with
  | some found =>
      rw [StoredDatabase.ensure_of_some hname, putDatabase_eq_self hready.known]
      rfl
  | none => rfl

end Host

/-! ## What the client makes of the answers -/

/-- What a client is told whose collection came into being before it created it. -/
def Error.nameTaken : Error := .transport (.api ⟨409, 1207, "duplicate name"⟩)

namespace Database

variable {stored : StoredDatabase} {name : String} {type : CollectionType}

theorem afterLookup_of_some (database : Database) {found : StoredCollection}
    (h : stored.collections.get? name = some found) :
    database.afterLookup name type
        (Client.received ("collection " ++ name) (.ok (stored.lookupResponse name))) =
      .done (if found.type = type then .ok ()
        else .error (.collectionType name type.name found.type.name)) := by
  rw [StoredDatabase.lookupResponse, h, ← checkType_describe]
  rfl

theorem afterLookup_of_none (database : Database) (h : stored.collections.get? name = none) :
    database.afterLookup name type
        (Client.received ("collection " ++ name) (.ok (stored.lookupResponse name))) =
      database.creation name type := by
  rw [StoredDatabase.lookupResponse, h]
  have hmissing : Refusal.collectionNotFound.describe.1 = 404 := rfl
  obtain ⟨cause, hcheck⟩ := Refusal.check_of_not_found hmissing ("collection " ++ name)
  show database.afterLookup name type (Response.check _ _) = _
  rw [hcheck]
  rfl

theorem received_creation (stored : StoredDatabase) (name : String) (type : CollectionType) :
    (Client.received ("collection " ++ name) (.ok (stored.creationResponse name type))).map
        (fun _ => ()) =
      if (stored.collections.get? name).isSome then .error .nameTaken else .ok () := by
  rw [StoredDatabase.creationResponse]
  cases stored.collections.get? name <;> rfl

end Database

end DocGraph
