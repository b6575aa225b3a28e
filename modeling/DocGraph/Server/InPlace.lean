import DocGraph.Server.Handle
/-!
# Requests worked off in place

Here a request is worked off step by step on a state that is changed in place, and a refusal undoes
nothing of what was done before it: a counter that was moved stays moved, an entry that was taken
out stays out.
-/

namespace DocGraph

/-- Work on a state, which can be refused midway; what was done before stays done. -/
abbrev Work (σ : Type) := ExceptT Refusal (StateM σ)

namespace Work

variable {σ α : Type}

def ofRuling (ruling : Ruling α) : Work σ α := ExceptT.mk (pure ruling)

def outcome (work : Work σ α) (state : σ) : Except Refusal α × σ := work.run.run state

def settle (work : Work σ Response) (state : σ) : Response × σ :=
  match work.outcome state with
  | (.ok response, after) => (response, after)
  | (.error refusal, after) => (refusal.response, after)

end Work

namespace StoredDatabase.InPlace

/-! ## Documents -/

def drawKey (documents : Table Json.Members) : (patience : Nat) → Work StoredDatabase String
  | 0 => return toString (← get).lastKey
  | patience + 1 => do
    modify fun database => { database with lastKey := database.lastKey + 1 }
    let key := toString (← get).lastKey
    if documents.contains key then drawKey documents patience else return key

/-- The key of a new document; it is drawn before it is known whether it can be used. -/
def chooseKey (stored : StoredCollection) (body : Json.Members) : Work StoredDatabase String := do
  let key ← match Assoc.get? "_key" body with
    | some (.string key) => if key = "" then throw .invalidKey else pure key
    | some _ => throw .invalidKey
    | none => drawKey stored.documents (stored.documents.size + 1)
  if stored.documents.contains key then throw .duplicateKey
  return key

def createDocument (fresh name : String) (body : Json.Members) :
    Work StoredDatabase Response := do
  match (← get).collections.get? name with
  | none => throw .collectionNotFound
  | some stored =>
    Work.ofRuling (checkEdge stored body)
    let key ← chooseKey stored body
    let document := withIdentity body name key fresh
    modify fun database => database.putDocument name stored key document
    return ⟨201, .object (identityMembers document)⟩

def replaceDocument (fresh name key : String) (body : Json.Members) (checksRev : Bool) :
    Work StoredDatabase Response := do
  match (← get).collections.get? name with
  | none => throw .collectionNotFound
  | some stored =>
    Work.ofRuling (checkEdge stored body)
    match stored.documents.get? key with
    | none => throw .documentNotFound
    | some current =>
      if checksRev then Work.ofRuling (checkRev current body)
      let document := withIdentity body name key fresh
      let oldRev := (Assoc.get? "_rev" current).getD .null
      modify fun database => database.putDocument name stored key document
      return ⟨201, .object (Assoc.insert "_oldRev" oldRev (identityMembers document))⟩

/-- Takes a document out, and looks only then whether there was one. -/
def deleteDocument (name key : String) : Work StoredDatabase Response := do
  match (← get).collections.get? name with
  | none => throw .collectionNotFound
  | some stored =>
    modify fun database => { database with
      collections := database.collections.insert name
        { stored with documents := stored.documents.erase key } }
    match stored.documents.get? key with
    | none => throw .documentNotFound
    | some document => return ⟨200, .object (identityMembers document)⟩

/-! ## Collections, graphs and indexes -/

def createCollection (name : String) (type : CollectionType) : Work StoredDatabase Response := do
  if (← get).collections.contains name then throw .duplicateName
  let stored := StoredCollection.empty type (name.toList.head? = some '_')
  modify fun database => { database with collections := database.collections.insert name stored }
  return ⟨200, stored.describe name⟩

def dropCollection (name : String) : Work StoredDatabase Response := do
  let dropped := (← get).collections.get? name
  modify fun database => { database with collections := database.collections.erase name }
  match dropped with
  | none => throw .collectionNotFound
  | some _ =>
    return ⟨200, .ofMembers [("id", .string name), ("error", .bool false), ("code", .ofNat 200)]⟩

def addCollections : List (String × CollectionType) → Work StoredDatabase Unit
  | [] => return
  | named :: rest => do
    modify fun database =>
      { database with collections := addCollection database.collections named }
    addCollections rest

def dropCollections (kept : List String) : List (String × CollectionType) → Work StoredDatabase Unit
  | [] => return
  | named :: rest => do
    if !kept.contains named.1 then
      modify fun database =>
        { database with collections := database.collections.erase named.1 }
    dropCollections kept rest

def createGraph (name : String) (graph : Json) : Work StoredDatabase Response := do
  if (← get).graphs.contains name then throw .duplicateGraph
  addCollections (graphCollections graph)
  modify fun database => { database with graphs := database.graphs.insert name graph }
  return ⟨202, .ofMembers [("graph", graph)]⟩

def dropGraph (name : String) (dropsCollections : Bool) : Work StoredDatabase Response := do
  let dropped := (← get).graphs.get? name
  modify fun database => { database with graphs := database.graphs.erase name }
  match dropped with
  | none => throw .graphNotFound
  | some graph =>
    if dropsCollections then
      dropCollections (usedCollections (← get).graphs) (graphCollections graph)
    return ⟨202, .ofMembers [("removed", .bool true)]⟩

def ensureIndex (name : String) (definition : Json.Members) : Work StoredDatabase Response := do
  match (← get).collections.get? name with
  | none => throw .collectionNotFound
  | some stored =>
    match stored.indexes.find? (sameIndex · definition) with
    | some index => return ⟨200, .object (Assoc.insert "isNewlyCreated" (.bool false) index)⟩
    | none =>
      let id := name ++ "/" ++ toString (stored.indexes.length + 1)
      let index := Assoc.insert "id" (.string id) definition
      modify fun database => { database with
        collections := database.collections.insert name
          { stored with indexes := stored.indexes ++ [index] } }
      return ⟨201, .object (Assoc.insert "isNewlyCreated" (.bool true) index)⟩

end StoredDatabase.InPlace

namespace Server.InPlace

/-! ## Cursors -/

def missing : StoredDatabase := ⟨Table.empty, Table.empty, 0⟩

/-- Works on a database; if there is none under the name, one comes into being. -/
def inDatabase (name : String) (work : Work StoredDatabase Response) : Work Server Response :=
  ExceptT.mk fun server =>
    let (result, database) := work.outcome ((server.databases.get? name).getD missing)
    (result, { server with databases := server.databases.insert name database })

def look (name : String) (ruling : StoredDatabase → Ruling (Granted StoredDatabase)) :
    Work Server Response := do
  let granted ← Work.ofRuling (ruling (((← get).databases.get? name).getD missing))
  return granted.response

def openCursor (name : String) (body : Option Json) : Work Server Response := do
  match body.bind Json.asObject? with
  | none => throw .bodyNotObject
  | some body =>
    if (queryText? body).isNone then throw .emptyQuery
    if !collectionsExist (((← get).databases.get? name).getD missing) body then
      throw .collectionNotFound
    let result := (← get).scripted.head?.getD ⟨[], none⟩
    modify fun server => { server with scripted := server.scripted.tail }
    let total := UInt64.ofNat result.rows.length
    let size := batchSize body
    let rest := result.rows.drop size
    let count := if isTrue (Assoc.get? "count" body) then [("count", Json.ofUInt64 total)] else []
    let stats :=
      if isTrue ((Assoc.get? "options" body).bind (Json.member? "fullCount")) then
        [("fullCount", Json.ofUInt64 (result.fullCount.getD total))]
      else []
    let members := [
      ("result", .array (result.rows.take size)),
      ("hasMore", .bool (!rest.isEmpty)),
      ("extra", .ofMembers [("stats", .ofMembers stats)])] ++ count
    if rest.isEmpty then return ⟨201, .ofMembers members⟩
    else
      modify fun server => { server with lastCursor := server.lastCursor + 1 }
      let id := toString (← get).lastCursor
      modify fun server => { server with cursors := server.cursors.insert id ⟨rest, size⟩ }
      return ⟨201, .ofMembers (members ++ [("id", .string id)])⟩

def nextBatch (id : String) : Work Server Response := do
  match (← get).cursors.get? id with
  | none => throw .cursorNotFound
  | some cursor =>
    let rest := cursor.rows.drop cursor.batchSize
    modify fun server =>
      { server with cursors := server.cursors.insert id { cursor with rows := rest } }
    if rest.isEmpty then
      modify fun server => { server with cursors := server.cursors.erase id }
    return ⟨200, .ofMembers [
      ("result", .array (cursor.rows.take cursor.batchSize)),
      ("hasMore", .bool (!rest.isEmpty)),
      ("id", .string id)]⟩

def closeCursor (id : String) : Work Server Response := do
  let closed := (← get).cursors.get? id
  modify fun server => { server with cursors := server.cursors.erase id }
  match closed with
  | none => throw .cursorNotFound
  | some _ =>
    return ⟨202, .ofMembers [("id", .string id), ("error", .bool false), ("code", .ofNat 202)]⟩

/-! ## Routes -/

def route (fresh name : String) (request : Request) (segments : List String) :
    Work Server Response :=
  match request.method, segments with
  | .post, ["document", collection] => do
    let body ← Work.ofRuling (StoredDatabase.documentBody request.body)
    inDatabase name (StoredDatabase.InPlace.createDocument fresh collection body)
  | .get, ["document", collection, key] => look name (·.readDocument collection key)
  | .put, ["document", collection, key] => do
    let body ← Work.ofRuling (StoredDatabase.documentBody request.body)
    inDatabase name (StoredDatabase.InPlace.replaceDocument fresh collection key body
      (request.param? "ignoreRevs" = some "false"))
  | .delete, ["document", collection, key] =>
    inDatabase name (StoredDatabase.InPlace.deleteDocument collection key)
  | .post, ["cursor"] => openCursor name request.body
  | .put, ["cursor", id] | .post, ["cursor", id] => nextBatch id
  | .delete, ["cursor", id] => closeCursor id
  | .get, ["collection"] =>
    look name (·.listCollections (request.param? "excludeSystem" = some "true"))
  | .post, ["collection"] =>
    match StoredDatabase.collectionDefinition? request.body with
    | none => throw .invalidCollection
    | some (collection, type) =>
      inDatabase name (StoredDatabase.InPlace.createCollection collection type)
  | .get, ["collection", collection] => look name (·.readCollection collection)
  | .delete, ["collection", collection] =>
    inDatabase name (StoredDatabase.InPlace.dropCollection collection)
  | .post, ["gharial"] =>
    match request.body, request.body.bind fun graph =>
      (graph.member? "name").bind Json.asString? with
    | some definition, some graph =>
      inDatabase name (StoredDatabase.InPlace.createGraph graph definition)
    | _, _ => throw .graphNameMissing
  | .get, ["gharial", graph] => look name (·.readGraph graph)
  | .delete, ["gharial", graph] =>
    inDatabase name (StoredDatabase.InPlace.dropGraph graph
      (request.param? "dropCollections" = some "true"))
  | .post, ["query"] => look name (parseQuery request.body)
  | .post, ["index"] =>
    match request.param? "collection", request.body with
    | none, _ => throw .collectionMissing
    | some collection, some (.object definition) =>
      inDatabase name (StoredDatabase.InPlace.ensureIndex collection definition)
    | some _, _ => throw .invalidIndex
  | _, _ => throw .unknownPath

def serve (fresh : String) (request : Request) : Work Server Response := do
  match Http.parsePath? request.path with
  | none => throw .unknownPath
  | some (name, segments) =>
    if (← get).databases.contains name then route fresh name request segments
    else throw .databaseNotFound

end Server.InPlace

end DocGraph
