import DocGraph.Http.Path
import DocGraph.Server.Catalog
import DocGraph.Server.Cursors
/-!
# Handling requests

A request is routed by its method and path.  A refused request leaves the server as it was; a
write takes the fresh revision that comes with the request.
-/

namespace DocGraph

namespace Server

/-- What became of a request: the response, the server afterwards, and whether the fresh
revision was used. -/
structure Outcome where
  response : Response
  server : Server
  usesRevision : Bool

def settle (server : Server) (ruling : Ruling (Granted Server)) : Outcome :=
  match ruling with
  | .ok granted => ⟨granted.response, granted.state, false⟩
  | .error refusal => ⟨refusal.response, server, false⟩

def within (server : Server) (name : String) (ruling : Ruling (Granted StoredDatabase)) :
    Ruling (Granted Server) := do
  let granted ← ruling
  return ⟨granted.response,
    { server with databases := server.databases.insert name granted.state }⟩

/-- The outcome of a write, which uses the fresh revision when it is granted. -/
def settleWrite (server : Server) (name : String) (ruling : Ruling (Granted StoredDatabase)) :
    Outcome :=
  { server.settle (server.within name ruling) with usesRevision := ruling.isOk }

def route (server : Server) (fresh name : String) (database : StoredDatabase)
    (request : Request) (segments : List String) : Outcome :=
  let inDatabase := fun ruling => server.settle (server.within name ruling)
  match request.method, segments with
  | .post, ["document", collection] =>
    server.settleWrite name (database.createDocument fresh collection request.body)
  | .get, ["document", collection, key] => inDatabase (database.readDocument collection key)
  | .put, ["document", collection, key] =>
    server.settleWrite name (database.replaceDocument fresh collection key request.body
      (request.param? "ignoreRevs" = some "false"))
  | .delete, ["document", collection, key] => inDatabase (database.deleteDocument collection key)
  | .post, ["cursor"] => server.settle (server.openCursor database request.body)
  | .put, ["cursor", id] | .post, ["cursor", id] => server.settle (server.nextBatch id)
  | .delete, ["cursor", id] => server.settle (server.closeCursor id)
  | .get, ["collection"] =>
    inDatabase (database.listCollections (request.param? "excludeSystem" = some "true"))
  | .post, ["collection"] => inDatabase (database.createCollection request.body)
  | .get, ["collection", collection] => inDatabase (database.readCollection collection)
  | .delete, ["collection", collection] => inDatabase (database.dropCollection collection)
  | .post, ["gharial"] => inDatabase (database.createGraph request.body)
  | .get, ["gharial", graph] => inDatabase (database.readGraph graph)
  | .delete, ["gharial", graph] =>
    inDatabase (database.dropGraph graph (request.param? "dropCollections" = some "true"))
  | .post, ["query"] => server.settle (parseQuery request.body server)
  | .post, ["index"] =>
    match request.param? "collection" with
    | some collection => inDatabase (database.ensureIndex collection request.body)
    | none => server.settle (.error .collectionMissing)
  | _, _ => server.settle (.error .unknownPath)

/-- Handles a request; `fresh` is the revision that a write would be given. -/
def handle (server : Server) (fresh : String) (request : Request) : Outcome :=
  match Http.parsePath? request.path with
  | none => server.settle (.error .unknownPath)
  | some (name, segments) =>
    match server.databases.get? name with
    | none => server.settle (.error .databaseNotFound)
    | some database => server.route fresh name database request segments

end Server

end DocGraph
