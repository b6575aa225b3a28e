import DocGraph.Proofs.Server.Handle
import DocGraph.Server.InPlace
/-!
# Refused requests change nothing

Worked off in place, a request would leave behind whatever was done before it was refused.  But
every refusal comes before the first change, or after changes that were none, so the outcome is the
one in which a refusal leaves everything as it was.
-/

namespace DocGraph

open Outcome

namespace Work

variable {σ α β : Type}

/-- The work comes to what is ruled, and it leaves nothing behind when it is refused. -/
def Performs (work : Work σ Response) (state : σ) (ruling : Ruling (Granted σ)) : Prop :=
  work.outcome state =
    match ruling with
    | .ok granted => (.ok granted.response, granted.state)
    | .error refusal => (.error refusal, state)

section Steps

variable (state : σ)

@[simp] theorem outcome_pure (a : α) : (pure a : Work σ α).outcome state = (.ok a, state) := rfl

@[simp] theorem outcome_pure_bind (a : α) (next : α → Work σ β) :
    (pure a >>= next).outcome state = (next a).outcome state := rfl

@[simp] theorem outcome_get_bind (next : σ → Work σ β) :
    (get >>= next).outcome state = (next state).outcome state := rfl

@[simp] theorem outcome_modify_bind (change : σ → σ) (next : PUnit → Work σ β) :
    (modify change >>= next).outcome state = (next ⟨⟩).outcome (change state) := rfl

@[simp] theorem outcome_ok_bind (a : α) (next : α → Work σ β) :
    (ofRuling (.ok a) >>= next).outcome state = (next a).outcome state := rfl

theorem outcome_bind (work : Work σ α) (next : α → Work σ β) :
    (work >>= next).outcome state =
      match work.outcome state with
      | (.ok a, after) => (next a).outcome after
      | (.error refusal, after) => (.error refusal, after) := by
  show (match work.outcome state with
    | (result, after) => ExceptT.bindCont next result after) = _
  rcases work.outcome state with ⟨_ | _, _⟩ <;> rfl

end Steps

end Work

namespace StoredDatabase.InPlace

/-! ## Work on a database -/

variable (database : StoredDatabase) (fresh name key : String) (members : Json.Members)

/-- Counting on stops at the first number that is free. -/
theorem outcome_drawKey {documents : Table Json.Members} {patience number : Nat}
    {database : StoredDatabase} (h : (List.range' (database.lastKey + 1) patience).find?
      (fun n : Nat => !documents.contains (toString n)) = some number) :
    (drawKey documents patience).outcome database =
      (.ok (toString number), { database with lastKey := number }) := by
  induction patience generalizing database with
  | zero => simp at h
  | succ patience ih =>
      rw [List.range'_succ, List.find?_cons] at h
      simp only [drawKey, Work.outcome_modify_bind, Work.outcome_get_bind]
      cases hused : documents.contains (toString (database.lastKey + 1)) with
      | true =>
          rw [if_pos rfl]
          simp only [hused, Bool.not_true] at h
          exact ih h
      | false =>
          simp only [hused, Bool.not_false, Option.some.injEq] at h
          simp [h]

theorem outcome_drawKey_eq (documents : Table Json.Members) (database : StoredDatabase) :
    (drawKey documents (documents.size + 1)).outcome database =
      (.ok (toString (nextKey documents database.lastKey)),
        { database with lastKey := nextKey documents database.lastKey }) := by
  refine outcome_drawKey ?_
  rw [List.range'_eq_map_range]
  exact find?_nextKey documents database.lastKey

theorem outcome_chooseKey (stored : StoredCollection) :
    (chooseKey stored members).outcome database =
      match database.chooseKey stored members with
      | .ok (key, lastKey) => (.ok key, { database with lastKey })
      | .error refusal => (.error refusal, database) := by
  unfold chooseKey StoredDatabase.chooseKey
  cases Assoc.get? "_key" members with
  | none =>
      have hfree : stored.documents.contains
          (toString (nextKey stored.documents database.lastKey)) = false := by
        rw [Table.contains, get?_nextKey]
        rfl
      simp only [Work.outcome_bind, outcome_drawKey_eq, hfree]
      rfl
  | some json =>
      cases json with
      | string key =>
          dsimp only
          split
          · rfl
          · rw [Work.outcome_pure_bind]
            split <;> rfl
      | _ => rfl

theorem createDocument_performs :
    (createDocument fresh name members).Performs database
      (database.createDocument fresh name (some (.object members))) := by
  unfold Work.Performs createDocument StoredDatabase.createDocument StoredDatabase.collection
  rw [Work.outcome_get_bind]
  cases database.collections.get? name with
  | none => rfl
  | some stored =>
      dsimp only [documentBody, ok_bind]
      cases checkEdge stored members with
      | error refusal => rfl
      | ok =>
          rw [Work.outcome_ok_bind, Work.outcome_bind, outcome_chooseKey]
          dsimp only [ok_bind]
          cases database.chooseKey stored members <;> rfl

theorem deleteDocument_performs :
    (deleteDocument name key).Performs database (database.deleteDocument name key) := by
  unfold Work.Performs deleteDocument StoredDatabase.deleteDocument StoredDatabase.collection
  rw [Work.outcome_get_bind]
  cases hstored : database.collections.get? name with
  | none => rfl
  | some stored =>
      dsimp only [ok_bind]
      cases hdocument : stored.documents.get? key with
      | none =>
          -- What was taken out was not there.
          have hsame : database.collections.insert name
              { stored with documents := stored.documents.erase key } = database.collections := by
            rw [Table.erase_eq_self hdocument]
            exact Table.insert_eq_self hstored
          rw [Work.outcome_modify_bind, hsame]
          rfl
      | some document => rfl

theorem replaceDocument_performs (checksRev : Bool) :
    (replaceDocument fresh name key members checksRev).Performs database
      (database.replaceDocument fresh name key (some (.object members)) checksRev) := by
  unfold Work.Performs replaceDocument StoredDatabase.replaceDocument StoredDatabase.collection
  rw [Work.outcome_get_bind]
  cases database.collections.get? name with
  | none => rfl
  | some stored =>
      dsimp only [documentBody, ok_bind]
      cases checkEdge stored members with
      | error refusal => rfl
      | ok =>
          dsimp only [ok_bind]
          cases stored.documents.get? key with
          | none => rfl
          | some current =>
              cases checksRev with
              | false => rfl
              | true =>
                  dsimp only
                  cases checkRev current members <;> rfl

theorem createCollection_performs (type : CollectionType) {body : Option Json}
    (hbody : collectionDefinition? body = some (name, type)) :
    (createCollection name type).Performs database (database.createCollection body) := by
  unfold Work.Performs createCollection StoredDatabase.createCollection
  rw [Work.outcome_get_bind, hbody]
  dsimp only
  cases database.collections.contains name <;> rfl

theorem dropCollection_performs :
    (dropCollection name).Performs database (database.dropCollection name) := by
  unfold Work.Performs dropCollection StoredDatabase.dropCollection StoredDatabase.collection
  rw [Work.outcome_get_bind]
  cases hstored : database.collections.get? name with
  | none =>
      rw [Work.outcome_modify_bind, Table.erase_eq_self hstored]
      rfl
  | some stored => rfl

theorem outcome_addCollections (named : List (String × CollectionType))
    (database : StoredDatabase) :
    (addCollections named).outcome database =
      (.ok (), { database with
        collections := named.foldl addCollection database.collections }) := by
  induction named generalizing database with
  | nil => rfl
  | cons one named ih => exact ih _

theorem createGraph_performs (graph : Json)
    (hname : (graph.member? "name").bind Json.asString? = some name) :
    (createGraph name graph).Performs database (database.createGraph (some graph)) := by
  unfold Work.Performs createGraph StoredDatabase.createGraph
  rw [Work.outcome_get_bind, Option.bind_some, hname]
  dsimp only
  cases database.graphs.contains name with
  | true => rfl
  | false =>
      rw [if_neg (by simp), Work.outcome_bind, outcome_addCollections]
      rfl

theorem outcome_dropCollections (kept : List String) (named : List (String × CollectionType))
    (database : StoredDatabase) :
    (dropCollections kept named).outcome database =
      (.ok (), { database with
        collections := ((named.map (·.1)).filter fun name => !kept.contains name).foldl
          Table.erase database.collections }) := by
  induction named generalizing database with
  | nil => rfl
  | cons one named ih =>
      rw [dropCollections, List.map_cons, List.filter_cons]
      cases kept.contains one.1 with
      | true => exact ih _
      | false => exact ih _

theorem dropGraph_performs (dropsCollections : Bool) :
    (dropGraph name dropsCollections).Performs database
      (database.dropGraph name dropsCollections) := by
  unfold Work.Performs dropGraph StoredDatabase.dropGraph
  rw [Work.outcome_get_bind, Work.outcome_modify_bind]
  cases hgraph : database.graphs.get? name with
  | none =>
      rw [Table.erase_eq_self hgraph]
      rfl
  | some graph =>
      cases dropsCollections with
      | false => rfl
      | true =>
          dsimp only
          rw [if_pos rfl, Work.outcome_get_bind, Work.outcome_bind, outcome_dropCollections]
          rfl

theorem ensureIndex_performs (definition : Json.Members) :
    (ensureIndex name definition).Performs database
      (database.ensureIndex name (some (.object definition))) := by
  unfold Work.Performs ensureIndex StoredDatabase.ensureIndex StoredDatabase.collection
  rw [Work.outcome_get_bind]
  cases database.collections.get? name with
  | none => rfl
  | some stored =>
      dsimp only [ok_bind]
      cases stored.indexes.find? (sameIndex · definition) <;> rfl

end StoredDatabase.InPlace

namespace Server.InPlace

/-! ## Work on the server -/

variable {server : Server} {name : String} {database : StoredDatabase}

theorem outcome_inDatabase (name : String) (work : Work StoredDatabase Response)
    (server : Server) :
    (inDatabase name work).outcome server =
      ((work.outcome ((server.databases.get? name).getD missing)).1,
        { server with
          databases := server.databases.insert name
            (work.outcome ((server.databases.get? name).getD missing)).2 }) := rfl

theorem inDatabase_performs (hdatabase : server.databases.get? name = some database)
    {work : Work StoredDatabase Response} {ruling : Ruling (Granted StoredDatabase)}
    (h : work.Performs database ruling) :
    (inDatabase name work).Performs server (server.within name ruling) := by
  unfold Work.Performs at h ⊢
  rw [outcome_inDatabase, hdatabase, Option.getD_some, h]
  cases ruling with
  | error refusal =>
      dsimp only
      rw [Table.insert_eq_self hdatabase]
      rfl
  | ok granted => rfl

theorem look_performs (hdatabase : server.databases.get? name = some database)
    {ruling : StoredDatabase → Ruling (Granted StoredDatabase)}
    (h : ∀ granted, ruling database = .ok granted → ∃ body, granted = ⟨⟨200, body⟩, database⟩) :
    (look name ruling).Performs server (server.within name (ruling database)) := by
  unfold Work.Performs look
  rw [Work.outcome_get_bind, hdatabase, Option.getD_some]
  cases hruling : ruling database with
  | error refusal => rfl
  | ok granted =>
      obtain ⟨body, rfl⟩ := h granted hruling
      show _ = (_, { server with databases := server.databases.insert name database })
      rw [Table.insert_eq_self hdatabase]
      rfl

theorem openCursor_performs (hdatabase : server.databases.get? name = some database)
    (body : Option Json) :
    (openCursor name body).Performs server (server.openCursor database body) := by
  unfold Work.Performs openCursor Server.openCursor
  cases body.bind Json.asObject? with
  | none => rfl
  | some members =>
      dsimp only
      cases (queryText? members).isNone with
      | true => rfl
      | false =>
          rw [if_neg (by simp), Work.outcome_get_bind, hdatabase, Option.getD_some]
          cases collectionsExist database members with
          | false => rfl
          | true =>
              rw [if_neg (by simp)]
              rw [Work.outcome_get_bind, Work.outcome_modify_bind]
              split <;> rfl

theorem nextBatch_performs (id : String) :
    (nextBatch id).Performs server (server.nextBatch id) := by
  unfold Work.Performs nextBatch Server.nextBatch
  rw [Work.outcome_get_bind]
  cases server.cursors.get? id with
  | none => rfl
  | some cursor =>
      dsimp only
      rw [Work.outcome_modify_bind]
      cases (cursor.rows.drop cursor.batchSize).isEmpty with
      | true =>
          rw [if_pos rfl, Work.outcome_modify_bind]
          dsimp only
          rw [Table.erase_insert_self]
          rfl
      | false => rfl

theorem closeCursor_performs (id : String) :
    (closeCursor id).Performs server (server.closeCursor id) := by
  unfold Work.Performs closeCursor Server.closeCursor
  rw [Work.outcome_get_bind, Work.outcome_modify_bind]
  cases hcursor : server.cursors.get? id with
  | none =>
      rw [Table.erase_eq_self hcursor]
      rfl
  | some cursor => rfl

/-! ## Routes -/

/-- The work answers and leaves behind what the outcome says. -/
def Reaches (server : Server) (work : Work Server Response) (outcome : Outcome) : Prop :=
  work.settle server = (outcome.response, outcome.server)

theorem reaches_settle {work : Work Server Response} {ruling : Ruling (Granted Server)}
    (h : work.Performs server ruling) : Reaches server work (server.settle ruling) := by
  unfold Work.Performs at h
  unfold Reaches Work.settle
  rw [h]
  cases ruling <;> rfl

theorem reaches_throw (refusal : Refusal) :
    Reaches server (throw refusal) (server.settle (.error refusal)) := rfl

theorem reaches_look (hdatabase : server.databases.get? name = some database)
    {ruling : StoredDatabase → Ruling (Granted StoredDatabase)}
    (h : ∀ granted, ruling database = .ok granted → ∃ body, granted = ⟨⟨200, body⟩, database⟩) :
    Reaches server (look name ruling) (server.settle (server.within name (ruling database))) :=
  reaches_settle (look_performs hdatabase h)

theorem reaches_inDatabase (hdatabase : server.databases.get? name = some database)
    {work : Work StoredDatabase Response} {ruling : Ruling (Granted StoredDatabase)}
    (h : work.Performs database ruling) :
    Reaches server (inDatabase name work) (server.settle (server.within name ruling)) :=
  reaches_settle (inDatabase_performs hdatabase h)

/-- A document is looked at before the database is. -/
theorem reaches_settleWrite (hdatabase : server.databases.get? name = some database)
    {body : Option Json} {work : Json.Members → Work StoredDatabase Response}
    {ruling : Json.Members → Ruling (Granted StoredDatabase)}
    (h : ∀ members, (work members).Performs database (ruling members)) :
    Reaches server
      (do
        let members ← Work.ofRuling (StoredDatabase.documentBody body)
        inDatabase name (work members))
      (server.settleWrite name (StoredDatabase.documentBody body >>= ruling)) := by
  cases StoredDatabase.documentBody body with
  | error refusal => rfl
  | ok members => exact reaches_inDatabase hdatabase (h members)

theorem reaches_createCollection (hdatabase : server.databases.get? name = some database)
    (body : Option Json) :
    Reaches server
      (match StoredDatabase.collectionDefinition? body with
        | none => throw .invalidCollection
        | some (collection, type) =>
          inDatabase name (StoredDatabase.InPlace.createCollection collection type))
      (server.settle (server.within name (database.createCollection body))) := by
  cases hdefinition : StoredDatabase.collectionDefinition? body with
  | none =>
      rw [StoredDatabase.createCollection, hdefinition]
      rfl
  | some definition =>
      exact reaches_inDatabase hdatabase
        (StoredDatabase.InPlace.createCollection_performs database _ _ hdefinition)

theorem reaches_createGraph (hdatabase : server.databases.get? name = some database)
    (body : Option Json) :
    Reaches server
      (match body, body.bind fun graph => (graph.member? "name").bind Json.asString? with
        | some definition, some graph =>
          inDatabase name (StoredDatabase.InPlace.createGraph graph definition)
        | _, _ => throw .graphNameMissing)
      (server.settle (server.within name (database.createGraph body))) := by
  cases body with
  | none => rfl
  | some definition =>
      rw [Option.bind_some]
      cases hgraph : (definition.member? "name").bind Json.asString? with
      | none =>
          unfold StoredDatabase.createGraph
          rw [Option.bind_some, hgraph]
          rfl
      | some graph =>
          exact reaches_inDatabase hdatabase
            (StoredDatabase.InPlace.createGraph_performs database _ _ hgraph)

theorem reaches_ensureIndex (hdatabase : server.databases.get? name = some database)
    (collection? : Option String) (body : Option Json) :
    Reaches server
      (match collection?, body with
        | none, _ => throw .collectionMissing
        | some collection, some (.object definition) =>
          inDatabase name (StoredDatabase.InPlace.ensureIndex collection definition)
        | some _, _ => throw .invalidIndex)
      (match collection? with
        | some collection =>
          server.settle (server.within name (database.ensureIndex collection body))
        | none => server.settle (.error .collectionMissing)) := by
  cases collection? with
  | none => rfl
  | some collection =>
      cases body with
      | none => rfl
      | some json =>
          cases json with
          | object definition =>
              exact reaches_inDatabase hdatabase
                (StoredDatabase.InPlace.ensureIndex_performs database _ definition)
          | _ => rfl

theorem reaches_parseQuery (hdatabase : server.databases.get? name = some database)
    (body : Option Json) :
    Reaches server (look name (parseQuery body)) (server.settle (parseQuery body server)) := by
  refine Eq.trans (reaches_look hdatabase fun _ h => parseQuery_granted h) ?_
  unfold parseQuery
  dsimp only
  split
  · show (_, { server with databases := server.databases.insert name database }) = (_, server)
    rw [Table.insert_eq_self hdatabase]
    rfl
  · rfl

theorem reaches_route (hdatabase : server.databases.get? name = some database) (fresh : String)
    (request : Request) (segments : List String) :
    Reaches server (route fresh name request segments)
      (server.route fresh name database request segments) := by
  unfold route
  split <;> rename_i hroute <;> simp only [Server.route, hroute]
  · exact reaches_settleWrite hdatabase fun members =>
      StoredDatabase.InPlace.createDocument_performs database fresh _ members
  · exact reaches_look hdatabase fun _ h => StoredDatabase.readDocument_granted h
  · exact reaches_settleWrite hdatabase fun members =>
      StoredDatabase.InPlace.replaceDocument_performs database fresh _ _ members _
  · exact reaches_inDatabase hdatabase
      (StoredDatabase.InPlace.deleteDocument_performs database _ _)
  · exact reaches_settle (openCursor_performs hdatabase request.body)
  · exact reaches_settle (nextBatch_performs _)
  · exact reaches_settle (nextBatch_performs _)
  · exact reaches_settle (closeCursor_performs _)
  · exact reaches_look hdatabase fun _ h => StoredDatabase.listCollections_granted h
  · exact reaches_createCollection hdatabase request.body
  · exact reaches_look hdatabase fun _ h => StoredDatabase.readCollection_granted h
  · exact reaches_inDatabase hdatabase
      (StoredDatabase.InPlace.dropCollection_performs database _)
  · exact reaches_createGraph hdatabase request.body
  · exact reaches_look hdatabase fun _ h => StoredDatabase.readGraph_granted h
  · exact reaches_inDatabase hdatabase
      (StoredDatabase.InPlace.dropGraph_performs database _ _)
  · exact reaches_parseQuery hdatabase request.body
  · exact reaches_ensureIndex hdatabase _ request.body
  · exact reaches_throw _

/-- Worked off in place, a request comes to the same as when a refusal takes everything back. -/
theorem reaches_serve (server : Server) (fresh : String) (request : Request) :
    Reaches server (serve fresh request) (server.handle fresh request) := by
  unfold serve handle
  cases Http.parsePath? request.path with
  | none => exact reaches_throw _
  | some address =>
      obtain ⟨name, segments⟩ := address
      show Reaches server (if server.databases.contains name then
        route fresh name request segments else throw .databaseNotFound) _
      dsimp only
      rw [Table.contains]
      cases hdatabase : server.databases.get? name with
      | none => exact reaches_throw _
      | some database => exact reaches_route hdatabase fresh request segments

end Server.InPlace

/-! ## Refused requests -/

namespace Server

/-- A request that is not answered with success leaves the server as it was and uses no revision,
also when it is worked off in place. -/
theorem unchanged_of_refused {server : Server} {fresh : String} {request : Request}
    (hrefused : (server.handle fresh request).response.isSuccess = false) :
    (server.handle fresh request).server = server ∧
    (server.handle fresh request).usesRevision = false ∧
    (InPlace.serve fresh request).settle server =
      ((server.handle fresh request).response, server) := by
  have hends := server.handle_ends fresh request
  have hreaches := InPlace.reaches_serve server fresh request
  unfold InPlace.Reaches at hreaches
  generalize server.handle fresh request = outcome at *
  cases hends with
  | refuse refusal => exact ⟨rfl, rfl, hreaches⟩
  | write _ hsuccess | amend _ hsuccess | move hsuccess =>
      exact absurd (hsuccess.symm.trans hrefused) (by decide)

def creation (body : Json.Members) : Request :=
  ⟨.post, Http.apiPath "_system" ["document", "lines"], [], some (.object body)⟩

def withLine : Server :=
  let server := (Server.new ["_system"]).handle "" ⟨.post,
    Http.apiPath "_system" ["collection"], [], some (.ofMembers [("name", .string "lines")])⟩
  (server.server.handle "_rev1" (creation [("_key", .string "1")])).server

/-- There can be no second document under a key. -/
theorem unchanged_of_refused_line :
    (withLine.handle "_rev2" (creation [("_key", .string "1")])).response.status = 409 ∧
    (InPlace.serve "_rev2" (creation [("_key", .string "1")])).settle withLine =
      ((withLine.handle "_rev2" (creation [("_key", .string "1")])).response, withLine) := by
  have hstatus : (withLine.handle "_rev2" (creation [("_key", .string "1")])).response.status =
      409 := by decide +kernel
  have hrefused : (withLine.handle "_rev2" (creation [("_key", .string "1")])).response.isSuccess =
      false := by simp [Response.isSuccess, hstatus]
  exact ⟨hstatus, (unchanged_of_refused hrefused).2.2⟩

end Server

end DocGraph
