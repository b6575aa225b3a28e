import DocGraph.Server.Documents
/-!
# Collections, graphs and indexes on the server

A graph is registered with its definition as it was sent, and brings into being the collections
that it names.  Dropping it can take along the collections that no other graph names.
-/

namespace DocGraph

namespace StoredDatabase

def listCollections (database : StoredDatabase) (excludesSystem : Bool) :
    Ruling (Granted StoredDatabase) :=
  let listed := database.collections.entries.filter fun (_, stored) =>
    !(excludesSystem && stored.isSystem)
  grant 200 (.ofMembers [
    ("result", .array (listed.map fun (name, stored) => stored.describe name)),
    ("error", .bool false),
    ("code", .ofNat 200)]) database

/-- The name and the type of a collection that is to be created; without a type it holds
documents. -/
def collectionDefinition? (body : Option Json) : Option (String × CollectionType) := do
  let name ← (← (← body).member? "name").asString?
  match ((← body).member? "type").bind Json.asUInt64? with
  | none => return (name, .document)
  | some number => return (name, ← CollectionType.ofNumber? number.toNat)

def createCollection (database : StoredDatabase) (body : Option Json) :
    Ruling (Granted StoredDatabase) := do
  match collectionDefinition? body with
  | none => throw .invalidCollection
  | some (name, type) =>
    if database.collections.contains name then throw .duplicateName
    let stored := StoredCollection.empty type (name.toList.head? = some '_')
    grant 200 (stored.describe name)
      { database with collections := database.collections.insert name stored }

def readCollection (database : StoredDatabase) (name : String) :
    Ruling (Granted StoredDatabase) := do
  grant 200 ((← database.collection name).describe name) database

def dropCollection (database : StoredDatabase) (name : String) :
    Ruling (Granted StoredDatabase) := do
  let _ ← database.collection name
  grant 200 (.ofMembers [("id", .string name), ("error", .bool false), ("code", .ofNat 200)])
    { database with collections := database.collections.erase name }

def namesIn (list : Option Json) : List String :=
  ((list.bind Json.asArray?).getD []).filterMap Json.asString?

def edgeCollections (definition : Json) : List (String × CollectionType) :=
  ((definition.member? "collection").bind Json.asString?).toList.map (·, .edge)
    ++ (namesIn (definition.member? "from") ++ namesIn (definition.member? "to")).map
      (·, .document)

def graphCollections (graph : Json) : List (String × CollectionType) :=
  (((graph.member? "edgeDefinitions").bind Json.asArray?).getD []).flatMap edgeCollections
    ++ (namesIn (graph.member? "orphanCollections")).map (·, .document)

def addCollection (collections : Table StoredCollection) (named : String × CollectionType) :
    Table StoredCollection :=
  if collections.contains named.1 then collections
  else collections.insert named.1 (.empty named.2 false)

def createGraph (database : StoredDatabase) (body : Option Json) :
    Ruling (Granted StoredDatabase) := do
  match body, body.bind fun graph => (graph.member? "name").bind Json.asString? with
  | some graph, some name =>
    if database.graphs.contains name then throw .duplicateGraph
    grant 202 (.ofMembers [("graph", graph)])
      { database with
        collections := (graphCollections graph).foldl addCollection database.collections
        graphs := database.graphs.insert name graph }
  | _, _ => throw .graphNameMissing

def readGraph (database : StoredDatabase) (name : String) : Ruling (Granted StoredDatabase) :=
  match database.graphs.get? name with
  | some graph => grant 200 (.ofMembers [("graph", graph)]) database
  | none => throw .graphNotFound

def usedCollections (graphs : Table Json) : List String :=
  (graphs.values.flatMap graphCollections).map (·.1)

/-- Drops a graph and, on demand, the collections that only it names. -/
def dropGraph (database : StoredDatabase) (name : String) (dropsCollections : Bool) :
    Ruling (Granted StoredDatabase) :=
  match database.graphs.get? name with
  | none => throw .graphNotFound
  | some graph =>
    let graphs := database.graphs.erase name
    let dropped :=
      if dropsCollections then
        ((graphCollections graph).map (·.1)).filter fun name =>
          !(usedCollections graphs).contains name
      else []
    grant 202 (.ofMembers [("removed", .bool true)])
      { database with
        graphs
        collections := dropped.foldl Table.erase database.collections }

def sameIndex (a b : Json.Members) : Bool :=
  ["type", "fields", "unique"].all fun name =>
    match Assoc.get? name a, Assoc.get? name b with
    | some x, some y => x.agrees y
    | none, none => true
    | _, _ => false

def ensureIndex (database : StoredDatabase) (name : String) (body : Option Json) :
    Ruling (Granted StoredDatabase) := do
  match body with
  | some (.object definition) =>
    let stored ← database.collection name
    match stored.indexes.find? (sameIndex · definition) with
    | some index =>
      grant 200 (.object (Assoc.insert "isNewlyCreated" (.bool false) index)) database
    | none =>
      let id := name ++ "/" ++ toString (stored.indexes.length + 1)
      let index := Assoc.insert "id" (.string id) definition
      grant 201 (.object (Assoc.insert "isNewlyCreated" (.bool true) index))
        { database with
          collections := database.collections.insert name
            { stored with indexes := stored.indexes ++ [index] } }
  | _ => throw .invalidIndex

end StoredDatabase

end DocGraph
