import DocGraph.Aql.Compile
import DocGraph.Client.Cursor
import DocGraph.Config
import DocGraph.Registry
/-!
# Databases

A database is used through its configuration and the schemas registered with it.  The operations
here make sure that collections and graphs exist, drop them, and run queries over any
collections.
-/

namespace DocGraph

structure Database where
  config : Config
  registry : Registry

def rowMembers : Json → Except Error Json.Members
  | .object members => .ok members
  | other => .error (.invalidValue "<row>" "object" other.kindName)

def openRequest (config : Config) (query : CompiledQuery) (fullCount : Bool) : Request where
  method := .post
  path := Http.apiPath config.database ["cursor"]
  query := []
  body := some (.ofMembers ([
    ("query", .string query.text),
    ("bindVars", .object query.bindVars),
    ("count", .bool config.count)]
    ++ config.batchSize.toList.map (fun n => ("batchSize", Json.ofUInt64 n.toUInt64))
    ++ config.cursorTtl.toList.map (fun n => ("ttl", Json.ofUInt64 n.toUInt64))
    ++ if fullCount then [("options", .ofMembers [("fullCount", .bool true)])] else []))

namespace Database

def path (database : Database) (segments : List String) : String :=
  Http.apiPath database.config.database segments

def register (database : Database) (schema : Schema) : Except Error Database := do
  return { database with registry := ← database.registry.register schema }

def typeName (number : Nat) : String :=
  match CollectionType.ofNumber? number with
  | some type => type.name
  | none => "unknown"

/-- Makes sure that a collection of a name and type exists: it is created if it cannot be
found. -/
def ensureNamed (database : Database) (name : String) (type : CollectionType) : Client Unit := do
  let what := "collection " ++ name
  let lookup := Request.plain .get (database.path ["collection", name])
  match ← (Client.send lookup what).attempt with
  | .ok body =>
    let found := (((body.member? "type").bind Json.asUInt64?).getD 0).toNat
    if found ≠ type.number then throw (.collectionType name type.name (typeName found))
  | .error (.notFound ..) =>
    let body := Json.ofMembers [("name", .string name), ("type", .ofNat type.number)]
    let _ ← Client.send ⟨.post, database.path ["collection"], [], some body⟩ what
  | .error error => throw error

def ensureCollection (database : Database) (schema : Schema) : Client Unit :=
  match schema.kind.collectionType? with
  | some type => database.ensureNamed schema.name type
  | none =>
    throw (.invalidSchema (schema.name ++ " is an embedded schema and has no collection"))

def dropCollection (database : Database) (name : String) : Client Unit := do
  let request := Request.plain .delete (database.path ["collection", name])
  let _ ← Client.send request ("collection " ++ name)

def listCollections (database : Database) : Client (List String) := do
  let body ← Client.send
    ⟨.get, database.path ["collection"], [("excludeSystem", "true")], none⟩ "collections"
  match (body.member? "result").bind Json.asArray? with
  | none => throw (.transport (.invalidResponse "collection list lacks result"))
  | some listed =>
    let names := listed.filterMap fun entry => (entry.member? "name").bind Json.asString?
    return (names.filter fun name => name.toList.head? ≠ some '_').mergeSort (· ≤ ·)

def ensureGraph (database : Database) (graph : GraphDefinition) : Client Unit := do
  graph.vertexCollections.forM fun name => database.ensureNamed name .document
  graph.edgeCollections.forM fun name => database.ensureNamed name .edge
  let what := "graph " ++ graph.name
  let lookup := Request.plain .get (database.path ["gharial", graph.name])
  match ← (Client.send lookup what).attempt with
  | .ok _ => return ()
  | .error (.notFound ..) =>
    let _ ← Client.send ⟨.post, database.path ["gharial"], [], some graph.toJson⟩ what
  | .error error => throw error

def dropGraph (database : Database) (name : String) (dropsCollections : Bool) : Client Unit := do
  let _ ← Client.send
    ⟨.delete, database.path ["gharial", name],
      [("dropCollections", toString dropsCollections)], none⟩ ("graph " ++ name)

def validate (database : Database) (query : Query) : Client Unit := do
  let compiled ← query.compile
  let body := Json.ofMembers [("query", .string compiled.text)]
  let request : Request := ⟨.post, database.path ["query"], [], some body⟩
  match ← (Exchange.execute request : Exchange Answer) with
  | .error error => throw (.transport error)
  | .ok response =>
    if response.status = 400 then
      throw (.unsupportedQuery "Query" response.apiError.message)
    let _ ← response.check "query"

def cursor {α : Type} (database : Database) (query : CompiledQuery) (fullCount : Bool)
    (decode : Json → Except Error α) : Cursor α :=
  Cursor.new database.config.database (openRequest database.config query fullCount) decode

/-- Runs a query; each row is loaded through the schema that its handle asks for, or else through
the one of the query. -/
def query [CustomCodecs] (database : Database) (query : Query) :
    Except Error (Cursor (Drawn Entity)) := do
  let compiled ← query.compile
  return database.cursor compiled false fun row => do
    let members ← rowMembers row
    ((database.registry.schemaFor? members).getD query.resultSchema).load members

def queryJson (database : Database) (query : Query) : Except Error (Cursor Json) := do
  return database.cursor (← query.compile) false .ok

end Database

end DocGraph
