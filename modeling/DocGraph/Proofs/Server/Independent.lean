import DocGraph.Proofs.Server.Handle
import DocGraph.Proofs.Table
/-!
# Document requests are independent

A request about one document sees whether the database and the collection are there, the type of
the collection and the document, and it changes nothing but the document.  Requests about different
documents thus can be handled in either order.
-/

namespace DocGraph

open Outcome

namespace StoredDatabase

/-! ## Rulings on one document -/

/-- A ruling on a document, by the type of its collection and by what is there.  It leaves behind
what is there afterwards. -/
abbrev Rule := CollectionType → Option Json.Members → Ruling (Granted (Option Json.Members))

/-- Puts a document in its place, or takes it away; without the collection nothing happens. -/
def setDocument (database : StoredDatabase) (name key : String)
    (document? : Option Json.Members) : StoredDatabase :=
  { database with
    collections := database.collections.modify name fun stored =>
      { stored with documents := stored.documents.set key document? } }

def judge (database : StoredDatabase) (name key : String) (rule : Rule) :
    Ruling (Granted StoredDatabase) := do
  let stored ← database.collection name
  let granted ← rule stored.type (stored.documents.get? key)
  return ⟨granted.response, database.setDocument name key granted.state⟩

def creation (fresh name key : String) (body : Json.Members) : Rule := fun type document? => do
  checkEdge (.empty type false) body
  match document? with
  | some _ => throw .duplicateKey
  | none =>
    let document := withIdentity body name key fresh
    grant 201 (.object (identityMembers document)) (some document)

def reading : Rule := fun _ document? =>
  match document? with
  | some document => grant 200 (.object document) (some document)
  | none => throw .documentNotFound

def replacement (fresh name key : String) (body : Json.Members) (checksRev : Bool) : Rule :=
  fun type document? => do
    checkEdge (.empty type false) body
    match document? with
    | none => throw .documentNotFound
    | some current =>
      if checksRev then checkRev current body
      let document := withIdentity body name key fresh
      let oldRev := (Assoc.get? "_rev" current).getD .null
      grant 201 (.object (Assoc.insert "_oldRev" oldRev (identityMembers document)))
        (some document)

def removal : Rule := fun _ document? =>
  match document? with
  | none => throw .documentNotFound
  | some document => grant 200 (.object (identityMembers document)) none

variable {database : StoredDatabase} {name : String} {stored : StoredCollection}

theorem judge_of_none (h : database.collections.get? name = none) (key : String) (rule : Rule) :
    database.judge name key rule = .error .collectionNotFound := by
  simp [judge, collection, h]

theorem judge_of_some (h : database.collections.get? name = some stored) (key : String)
    (rule : Rule) :
    database.judge name key rule = rule stored.type (stored.documents.get? key) >>= fun granted =>
      .ok ⟨granted.response, database.setDocument name key granted.state⟩ := by
  simp [judge, collection, h]

theorem setDocument_of_some (h : database.collections.get? name = some stored) (key : String)
    (document? : Option Json.Members) :
    database.setDocument name key document? =
      { database with
        collections := database.collections.insert name
          { stored with documents := stored.documents.set key document? } } := by
  rw [setDocument, Table.modify_of_some h]

/-- A document may be put where it already is. -/
theorem setDocument_eq_self (database : StoredDatabase) (name key : String) :
    database.setDocument name key (database.document? name key) = database := by
  have hcollections : database.collections.modify name (fun stored =>
      { stored with documents := stored.documents.set key (database.document? name key) }) =
      database.collections := by
    refine Table.modify_eq_self fun stored hstored => ?_
    rw [document?_of_collection hstored, Table.set_eq_self]
  rw [setDocument, hcollections]

/-- Of a collection only its type matters for the ends of an edge. -/
theorem checkEdge_empty (stored : StoredCollection) (body : Json.Members) :
    checkEdge (.empty stored.type false) body = checkEdge stored body := rfl

theorem createDocument_eq_judge (database : StoredDatabase) (fresh name : String) {key : String}
    {body : Json.Members} (hkey : Assoc.get? "_key" body = some (.string key)) (hne : key ≠ "") :
    database.createDocument fresh name (some (.object body)) =
      database.judge name key (creation fresh name key body) := by
  simp only [createDocument, judge, documentBody, ok_bind, collection]
  cases hstored : database.collections.get? name with
  | none => rfl
  | some stored =>
      simp only [ok_bind, creation, checkEdge_empty, chooseKey, hkey, if_neg hne,
        Table.contains]
      cases checkEdge stored body with
      | error refusal => rfl
      | ok _ =>
          rcases Option.eq_none_or_eq_some (stored.documents.get? key) with
            hnone | ⟨document, hsome⟩
          · simp [hnone, grant, setDocument_of_some hstored, Table.set, putDocument]
          · simp [hsome]

theorem readDocument_eq_judge (database : StoredDatabase) (name key : String) :
    database.readDocument name key = database.judge name key reading := by
  simp only [readDocument, judge, collection]
  cases hstored : database.collections.get? name with
  | none => rfl
  | some stored =>
      have hself := setDocument_eq_self database name key
      rw [document?_of_collection hstored] at hself
      cases hdocument : stored.documents.get? key with
      | none => simp [reading, hdocument]
      | some document =>
          rw [hdocument] at hself
          simp [reading, hdocument, grant, hself]

theorem replaceDocument_eq_judge (database : StoredDatabase) (fresh name key : String)
    (body : Option Json) (checksRev : Bool) :
    database.replaceDocument fresh name key body checksRev =
      documentBody body >>= fun members =>
        database.judge name key (replacement fresh name key members checksRev) := by
  simp only [replaceDocument, judge, collection]
  cases documentBody body with
  | error refusal => rfl
  | ok members =>
      simp only [ok_bind]
      cases hstored : database.collections.get? name with
      | none => rfl
      | some stored =>
          simp only [ok_bind, replacement, checkEdge_empty]
          cases checkEdge stored members with
          | error refusal => rfl
          | ok _ =>
              cases hdocument : stored.documents.get? key with
              | none => simp
              | some current =>
                  cases checkRev current members <;> cases checksRev <;>
                    simp [grant, setDocument_of_some hstored, Table.set, putDocument]

theorem deleteDocument_eq_judge (database : StoredDatabase) (name key : String) :
    database.deleteDocument name key = database.judge name key removal := by
  simp only [deleteDocument, judge, collection]
  cases hstored : database.collections.get? name with
  | none => rfl
  | some stored =>
      cases hdocument : stored.documents.get? key with
      | none => simp [removal, hdocument]
      | some document =>
          simp [removal, hdocument, grant, setDocument_of_some hstored, Table.set]

theorem setDocument_comm (database : StoredDatabase) {name other key k : String}
    (h : ¬(name = other ∧ key = k)) (document? other? : Option Json.Members) :
    (database.setDocument name key document?).setDocument other k other? =
      (database.setDocument other k other?).setDocument name key document? := by
  simp only [setDocument, mk.injEq, and_self, and_true]
  refine Table.modify_comm _ fun hname stored => ?_
  simp only [StoredCollection.mk.injEq, true_and, and_true]
  exact Table.set_comm _ (fun hkey => h ⟨hname, hkey⟩) _ _

end StoredDatabase

/-! ## What a request sees and does -/

/-- What a request about a document can see. -/
inductive Sight where
  | noDatabase
  | noCollection
  | document (type : CollectionType) (document? : Option Json.Members)

/-- What comes of a request about a document: the response, what is there afterwards, and whether
the fresh revision was used. -/
structure Reaction where
  response : Response
  document? : Option Json.Members
  usesRevision : Bool

/-- A rule is looked up before anything is looked at; a write uses the fresh revision. -/
def Reaction.of (ruling : Ruling StoredDatabase.Rule) (writes : Bool) : Sight → Reaction
  | .noDatabase => ⟨Refusal.databaseNotFound.response, none, false⟩
  | .noCollection =>
    match ruling with
    | .ok _ => ⟨Refusal.collectionNotFound.response, none, false⟩
    | .error refusal => ⟨refusal.response, none, false⟩
  | .document type document? =>
    match ruling >>= fun rule => rule type document? with
    | .ok granted => ⟨granted.response, granted.state, writes⟩
    | .error refusal => ⟨refusal.response, document?, false⟩

namespace Server

variable {place other : Place}

def sight (server : Server) (place : Place) : Sight :=
  match server.databases.get? place.database with
  | none => .noDatabase
  | some database =>
    match database.collections.get? place.collection with
    | none => .noCollection
    | some stored => .document stored.type (stored.documents.get? place.key)

def setDocument (server : Server) (place : Place) (document? : Option Json.Members) : Server :=
  { server with
    databases := server.databases.modify place.database fun database =>
      database.setDocument place.collection place.key document? }

theorem setDocument_comm (server : Server) (h : place ≠ other)
    (document? other? : Option Json.Members) :
    (server.setDocument place document?).setDocument other other? =
      (server.setDocument other other?).setDocument place document? := by
  simp only [setDocument, mk.injEq, and_self, and_true]
  refine Table.modify_comm _ fun hdatabase database => ?_
  refine database.setDocument_comm (fun hsame => h ?_) _ _
  obtain ⟨_, _, _⟩ := place
  obtain ⟨_, _, _⟩ := other
  simp_all

theorem setDocument_eq_self (server : Server) (place : Place) :
    server.setDocument place (server.documentAt? place) = server := by
  have hdatabases : server.databases.modify place.database (fun database =>
      database.setDocument place.collection place.key (server.documentAt? place)) =
      server.databases := by
    refine Table.modify_eq_self fun database hdatabase => ?_
    rw [documentAt?, document?_of_database hdatabase, StoredDatabase.setDocument_eq_self]
  rw [setDocument, hdatabases]

/-- What there is to see at a place does not change with the document at another one. -/
theorem sight_setDocument (server : Server) (h : place ≠ other)
    (document? : Option Json.Members) :
    (server.setDocument place document?).sight other = server.sight other := by
  obtain ⟨name, collection, key⟩ := place
  obtain ⟨name', collection', key'⟩ := other
  simp only [sight, setDocument, Table.get?_modify]
  by_cases hname : name = name'
  · rw [if_pos hname]
    cases server.databases.get? name' with
    | none => rfl
    | some database =>
        simp only [Option.map_some, StoredDatabase.setDocument, Table.get?_modify]
        by_cases hcollection : collection = collection'
        · have hkey : key ≠ key' := fun hkey => h (by rw [hname, hcollection, hkey])
          rw [if_pos hcollection]
          cases database.collections.get? collection' with
          | none => rfl
          | some stored => simp only [Option.map_some, Table.get?_set, if_neg hkey]
        · rw [if_neg hcollection]
  · rw [if_neg hname]

/-- A request that is answered by what is seen at a place, and that changes nothing else. -/
def ReactsAt (place : Place) (fresh : String) (request : Request) (react : Sight → Reaction) :
    Prop :=
  ∀ server : Server, server.handle fresh request =
    let reaction := react (server.sight place)
    ⟨reaction.response, server.setDocument place reaction.document?, reaction.usesRevision⟩

theorem outcome_judge {server : Server} {database : StoredDatabase}
    (hdatabase : server.databases.get? place.database = some database)
    (ruling : Ruling StoredDatabase.Rule) (writes : Bool) :
    let judged := ruling >>= database.judge place.collection place.key
    let reaction := Reaction.of ruling writes (server.sight place)
    { server.settle (server.within place.database judged) with
        usesRevision := writes && judged.isOk } =
      (⟨reaction.response, server.setDocument place reaction.document?, reaction.usesRevision⟩ :
        Outcome) := by
  have hself := server.setDocument_eq_self place
  rw [documentAt?, document?_of_database hdatabase, StoredDatabase.document?] at hself
  have hset (document? : Option Json.Members) : server.setDocument place document? =
      { server with
        databases := server.databases.insert place.database
          (database.setDocument place.collection place.key document?) } := by
    rw [setDocument, Table.modify_of_some hdatabase]
  simp only [sight, hdatabase]
  cases hcollection : database.collections.get? place.collection with
  | none =>
      rw [hcollection, Option.bind_none] at hself
      cases ruling <;>
        simp [Reaction.of, settle, within, Except.isOk, Except.toBool, hself,
          StoredDatabase.judge_of_none hcollection]
  | some stored =>
      rw [hcollection, Option.bind_some] at hself
      cases ruling with
      | error refusal => simp [Reaction.of, settle, within, Except.isOk, Except.toBool, hself]
      | ok rule =>
          cases hruling : rule stored.type (stored.documents.get? place.key) with
          | error refusal =>
              simp [Reaction.of, settle, within, Except.isOk, Except.toBool, hself, hruling,
                StoredDatabase.judge_of_some hcollection]
          | ok granted =>
              simp [Reaction.of, settle, within, Except.isOk, Except.toBool, hset, hruling,
                StoredDatabase.judge_of_some hcollection]

/-! ## Requests about documents -/

end Server

def explicitKey? : Option Json → Option String
  | some (.object body) => ((Assoc.get? "_key" body).bind Json.asString?).filter (· ≠ "")
  | _ => none

def Request.place? (request : Request) : Option Place := do
  let (database, segments) ← Http.parsePath? request.path
  match request.method, segments with
  | .get, ["document", collection, key] => some ⟨database, collection, key⟩
  | .put, ["document", collection, key] => some ⟨database, collection, key⟩
  | .delete, ["document", collection, key] => some ⟨database, collection, key⟩
  | .post, ["document", collection] =>
    (explicitKey? request.body).map fun key => ⟨database, collection, key⟩
  | _, _ => none

namespace Server

theorem explicitKey?_eq_some {body : Option Json} {key : String}
    (h : explicitKey? body = some key) : ∃ members, body = some (.object members) ∧
      Assoc.get? "_key" members = some (.string key) ∧ key ≠ "" := by
  unfold explicitKey? at h
  split at h
  · rename_i members
    obtain ⟨hkey, hne⟩ := Option.filter_eq_some_iff.1 h
    obtain ⟨json, hjson, hstring⟩ := Option.bind_eq_some_iff.1 hkey
    rw [Json.eq_string_of_asString? hstring] at hjson
    exact ⟨members, rfl, hjson, by simpa using hne⟩
  · cases h

variable {fresh : String} {request : Request}

theorem reactsAt_of_route {segments : List String}
    (hpath : Http.parsePath? request.path = some (place.database, segments))
    (ruling : Ruling StoredDatabase.Rule) (writes : Bool)
    (hroute : ∀ (server : Server) (database : StoredDatabase),
      let judged := ruling >>= database.judge place.collection place.key
      server.route fresh place.database database request segments =
        { server.settle (server.within place.database judged) with
          usesRevision := writes && judged.isOk }) :
    ReactsAt place fresh request (Reaction.of ruling writes) := by
  intro server
  cases hdatabase : server.databases.get? place.database with
  | none =>
      have hself := server.setDocument_eq_self place
      have hnothing : server.documentAt? place = none := by
        simp [documentAt?, document?, hdatabase]
      rw [hnothing] at hself
      simp [handle, hpath, hdatabase, sight, Reaction.of, settle, hself]
  | some database =>
      rw [← outcome_judge hdatabase, ← hroute]
      simp [handle, hpath, hdatabase]

theorem settle_eq (server : Server) (ruling : Ruling (Granted Server)) :
    server.settle ruling = { server.settle ruling with usesRevision := false } := by
  cases ruling <;> rfl

/-- A request about one document reacts to what is seen at its place. -/
theorem exists_reaction (h : request.place? = some place) (fresh : String) :
    ∃ react, ReactsAt place fresh request react := by
  unfold Request.place? at h
  obtain ⟨⟨name, segments⟩, hpath, h⟩ := Option.bind_eq_some_iff.1 h
  dsimp only at h
  split at h
  · rename_i collection key hmethod
    obtain rfl := Option.some.inj h
    refine ⟨_, reactsAt_of_route hpath (.ok StoredDatabase.reading) false fun server database => ?_⟩
    simp only [route, hmethod, StoredDatabase.readDocument_eq_judge]
    exact settle_eq ..
  · rename_i collection key hmethod
    obtain rfl := Option.some.inj h
    refine ⟨_, reactsAt_of_route hpath
      (StoredDatabase.documentBody request.body >>= fun members =>
        .ok (StoredDatabase.replacement fresh collection key members
          (request.param? "ignoreRevs" = some "false"))) true fun server database => ?_⟩
    simp only [route, hmethod, settleWrite, StoredDatabase.replaceDocument_eq_judge]
    cases StoredDatabase.documentBody request.body <;> rfl
  · rename_i collection key hmethod
    obtain rfl := Option.some.inj h
    refine ⟨_, reactsAt_of_route hpath (.ok StoredDatabase.removal) false fun server database => ?_⟩
    simp only [route, hmethod, StoredDatabase.deleteDocument_eq_judge]
    exact settle_eq ..
  · rename_i collection hmethod
    obtain ⟨key, hkey, rfl⟩ := Option.map_eq_some_iff.1 h
    obtain ⟨members, hbody, hmembers, hne⟩ := explicitKey?_eq_some hkey
    refine ⟨_, reactsAt_of_route hpath (.ok (StoredDatabase.creation fresh collection key members))
      true fun server database => ?_⟩
    simp only [route, hmethod, settleWrite, hbody,
      database.createDocument_eq_judge fresh collection hmembers hne]
    rfl
  · cases h

/-- Requests about different documents can be handled in either order: both are answered as
before, and they leave the same behind. -/
theorem documents_commute (server : Server) (fresh fresh' : String) {request request' : Request}
    {place place' : Place} (hplace : request.place? = some place)
    (hplace' : request'.place? = some place') (hne : place ≠ place') :
    let first := server.handle fresh request
    let second := first.server.handle fresh' request'
    let first' := server.handle fresh' request'
    let second' := first'.server.handle fresh request
    second.server = second'.server ∧
      (first.response, first.usesRevision) = (second'.response, second'.usesRevision) ∧
      (second.response, second.usesRevision) = (first'.response, first'.usesRevision) := by
  obtain ⟨react, hreact⟩ := exists_reaction hplace fresh
  obtain ⟨react', hreact'⟩ := exists_reaction hplace' fresh'
  unfold ReactsAt at hreact hreact'
  simp only [hreact, hreact', sight_setDocument _ hne, sight_setDocument _ hne.symm, and_self,
    and_true]
  exact server.setDocument_comm hne _ _

def withMoorings : Server :=
  ((Server.new ["_system"]).handle "" ⟨.post, Http.apiPath "_system" ["collection"], [],
    some (.ofMembers [("name", .string "moorings")])⟩).server

def mooring (key : String) : Request :=
  ⟨.post, Http.apiPath "_system" ["document", "moorings"], [],
    some (.ofMembers [("_key", .string key)])⟩

theorem documents_commute_moorings :
    (mooring "east").place? = some ⟨"_system", "moorings", "east"⟩ ∧
    (mooring "west").place? = some ⟨"_system", "moorings", "west"⟩ ∧
    (withMoorings.handle "_rev1" (mooring "east")).response.status = 201 ∧
    let first := withMoorings.handle "_rev1" (mooring "east")
    let second := first.server.handle "_rev2" (mooring "west")
    let first' := withMoorings.handle "_rev2" (mooring "west")
    let second' := first'.server.handle "_rev1" (mooring "east")
    second.server = second'.server ∧
      (first.response, first.usesRevision) = (second'.response, second'.usesRevision) ∧
      (second.response, second.usesRevision) = (first'.response, first'.usesRevision) := by
  have heast : (mooring "east").place? = some ⟨"_system", "moorings", "east"⟩ := by decide +kernel
  have hwest : (mooring "west").place? = some ⟨"_system", "moorings", "west"⟩ := by decide +kernel
  refine ⟨heast, hwest, by decide +kernel, ?_⟩
  exact documents_commute withMoorings "_rev1" "_rev2" heast hwest (by decide)

end Server

end DocGraph
