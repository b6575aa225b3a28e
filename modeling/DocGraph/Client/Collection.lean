import DocGraph.Client.Database
import DocGraph.Page
import DocGraph.Query.Build
import DocGraph.Record.Key
/-!
# Collections

A collection stores the entities of one schema.  An operation on an entity answers together with
the entity as it is afterwards; only a success changes it.
-/

namespace DocGraph

structure Collection where
  database : Database
  schema : Schema

open Json in
def Identity.read {σ : Type} [Readable σ] (s : σ) : Option Identity := do
  let fields ← Read.fields ["_key", "_id", "_rev"] s
  return ⟨← fields.withDefault "_key" none (Read.nullable Read.string),
    ← fields.withDefault "_id" none (Read.nullable Read.string),
    ← fields.withDefault "_rev" none (Read.nullable Read.string)⟩

abbrev EntityClient (α : Type) := ExceptT Error (StateT Entity Exchange) α

def Client.aside {α : Type} (client : Client α) : EntityClient α :=
  ExceptT.mk (StateT.lift client.run)

namespace Collection

def name (collection : Collection) : String := collection.schema.name

def documentPath (collection : Collection) (key : Option String) : String :=
  collection.database.path (["document", collection.name] ++ key.toList)

def handle (collection : Collection) (key : String) : String :=
  documentHandle collection.name key

def checkSchema (collection : Collection) (entity : Entity) : Except Error Unit :=
  if entity.schema.name = collection.name then .ok ()
  else .error (.invalidSchema
    ("entity of " ++ entity.schema.name ++ " used with collection " ++ collection.name))

def checkQuery (collection : Collection) (query : Query) : Except Error Unit :=
  if query.root.schema.name = collection.name then .ok ()
  else .error (.unsupportedQuery "Query"
    ("query over " ++ query.root.schema.name ++ " run on collection " ++ collection.name))

def persistedKey (entity : Entity) : Except Error String :=
  match entity.state, entity.identity.key with
  | .deleted, _ => .error (.entityDeleted entity.handle)
  | .unbound, _ | _, none => .error (.notPersisted entity.handle)
  | _, some key => .ok key

def checkUnbound (entity : Entity) : Except Error Unit :=
  match entity.state with
  | .unbound => .ok ()
  | .deleted => .error (.entityDeleted entity.handle)
  | _ => .error (.alreadyExists entity.handle none)

def identityOf (body : Json) : Except Error Identity :=
  match Identity.read body with
  | some identity => .ok identity
  | none => .error .unreadable

/-- The page that some items make, given how many there are in all; without that number they are
taken to be the last. -/
def pageOf {α : Type} (items : List α) (params : Pagination) (fullCount : Option UInt64) :
    Option (Page α) := do
  let count ← match fullCount with
    | some count => some count
    | none => Pagination.checkedAdd params.offset (UInt64.ofNat items.length)
  Page.new items params count

section

variable [CustomCodecs]

def get (collection : Collection) (key : String) : Client (Drawn Entity) := do
  let request := Request.plain .get (collection.documentPath (some key))
  let body ← Client.send request (collection.handle key)
  collection.schema.load (← rowMembers body)

/-- The body that creates a document: the server chooses its revision, and its key unless the
entity or its schema does. -/
def createBody (collection : Collection) (entity : Entity) : Except Error Json.Members := do
  let body := Assoc.erase "_rev" (Assoc.erase "_id" (← collection.schema.dump entity))
  if Assoc.contains "_key" body then return body
  match ← collection.schema.computeKey entity.record with
  | some key => return Assoc.insert "_key" (.string key) body
  | none => return body

def create (collection : Collection) : EntityClient Identity := do
  let entity ← getThe Entity
  collection.checkSchema entity
  checkUnbound entity
  let body ← collection.createBody entity
  let what := match (Assoc.get? "_key" body).bind Json.asString? with
    | some key => collection.handle key
    | none => entity.handle
  let request : Request := ⟨.post, collection.documentPath none, [], some (.object body)⟩
  let identity ← identityOf (← (Client.send request what).aside)
  set (entity.markPersisted identity)
  return identity

/-- Writes an entity over its document, unless the document has changed since it was read. -/
def update (collection : Collection) : EntityClient Identity := do
  let entity ← getThe Entity
  collection.checkSchema entity
  let key ← persistedKey entity
  let body := Assoc.erase "_id" (← collection.schema.dump entity)
  let request : Request := ⟨.put, collection.documentPath (some key),
    [("ignoreRevs", "false")], some (.object body)⟩
  let identity ← identityOf (← (Client.send request (collection.handle key)).aside)
  set (entity.markPersisted identity)
  return identity

def delete (collection : Collection) : EntityClient Unit := do
  let entity ← getThe Entity
  collection.checkSchema entity
  let key ← persistedKey entity
  let request := Request.plain .delete (collection.documentPath (some key))
  let _ ← (Client.send request (collection.handle key)).aside
  set entity.markDeleted

def refresh (collection : Collection) (moment : Moment) : EntityClient Unit := do
  let entity ← getThe Entity
  collection.checkSchema entity
  let key ← persistedKey entity
  let fresh ← (collection.get key).aside
  set { fresh moment with state := .persisted }

def decodeRow (schema : Schema) (row : Json) : Except Error (Drawn Entity) := do
  schema.load (← rowMembers row)

def query (collection : Collection) (query : Query) :
    Except Error (Cursor (Drawn Entity)) := do
  collection.checkQuery query
  return collection.database.cursor (← query.compile) false (decodeRow query.resultSchema)

def all (collection : Collection) : Except Error (Cursor (Drawn Entity)) :=
  collection.query (.ofSchema collection.schema)

/-- Reads a page of a query.  There is none if one of its numbers does not fit 64 bits, which breaks
the program off. -/
def page (collection : Collection) (query : Query) (params : Pagination)
    (patience : Nat) : Client (Option (Page (Drawn Entity))) := do
  collection.checkQuery query
  let windowed := query.slice params.offset params.perPage
  let cursor := collection.database.cursor (← windowed.compile) true
    (decodeRow windowed.resultSchema)
  let (items, cursor) ← (cursor.drain true patience : Exchange _)
  let items ← items.mapM (fun item => (item : Except Error (Drawn Entity)))
  return pageOf items params cursor.fullCount

end

def vertexId (vertex : Entity) : Except Error String :=
  match vertex.state, vertex.identity.id with
  | .deleted, _ => .error (.entityDeleted vertex.handle)
  | .unbound, _ | _, none => .error (.notPersisted vertex.handle)
  | _, some id => .ok id

def connections [CustomCodecs] (collection : Collection) (vertex : Entity)
    (direction : Direction) : Except Error (Cursor (Drawn Entity)) := do
  if !collection.schema.isEdge then
    throw (.invalidSchema
      ("connections need an edge collection, " ++ collection.name ++ " holds documents"))
  let id ← vertexId vertex
  let start ← (Query.ofSchema vertex.schema).filter
    (.compare (.ofDotted "_id") .eq (.literal (.string id)))
  let query ← start.traverse
    (.step direction (.edgeCollections [collection.name]) "neighbour" vertex.schema)
  collection.database.query query

def ensureIndex (collection : Collection) (fields : List String) (unique : Bool) :
    Client Unit := do
  fields.forM fun field => do
    let _ ← collection.schema.resolvePath (Text.split '.' field)
  let body := Json.ofMembers [
    ("type", .string "persistent"),
    ("fields", .array (fields.map .string)),
    ("unique", .bool unique)]
  let _ ← Client.send
    ⟨.post, collection.database.path ["index"], [("collection", collection.name)], some body⟩
    ("index on " ++ collection.name)

end Collection

end DocGraph
