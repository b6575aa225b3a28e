import DocGraph.Handle
import DocGraph.Server.State
/-!
# Documents on the server

A document is created under a key that no other document of its collection has, replaced as a
whole, and removed.  The server owns the identity of a document: every write gives it a fresh
revision, and a replacement may ask that the revision it knows is still the current one.
-/

namespace DocGraph

namespace StoredDatabase

def withIdentity (body : Json.Members) (collection key rev : String) : Json.Members :=
  Assoc.insert "_rev" (.string rev)
    (Assoc.insert "_id" (.string (documentHandle collection key))
      (Assoc.insert "_key" (.string key) body))

def hasHandle (body : Json.Members) (name : String) : Bool :=
  match (Assoc.get? name body).bind Json.asString? with
  | some handle => isDocumentHandle handle
  | none => false

def documentBody : Option Json → Ruling Json.Members
  | some (.object body) => .ok body
  | _ => .error .invalidDocument

def collection (database : StoredDatabase) (name : String) : Ruling StoredCollection :=
  match database.collections.get? name with
  | some stored => .ok stored
  | none => .error .collectionNotFound

def checkEdge (stored : StoredCollection) (body : Json.Members) : Ruling Unit :=
  if stored.type = .edge ∧ !(hasHandle body "_from" && hasHandle body "_to") then
    .error .invalidEdge
  else .ok ()

/-- The first number after `last` whose text is no key of a collection; there is one among as
many candidates as the collection has documents, and one more. -/
def nextKey (documents : Table Json.Members) (last : Nat) : Nat :=
  (((List.range (documents.size + 1)).map (last + 1 + ·)).find? fun n : Nat =>
    !documents.contains (toString n)).getD last

/-- The key of a new document, and the last number tried as a key. -/
def chooseKey (database : StoredDatabase) (stored : StoredCollection) (body : Json.Members) :
    Ruling (String × Nat) :=
  match Assoc.get? "_key" body with
  | none =>
    let number := nextKey stored.documents database.lastKey
    .ok (toString number, number)
  | some (.string key) =>
    if key = "" then .error .invalidKey
    else if stored.documents.contains key then .error .duplicateKey
    else .ok (key, database.lastKey)
  | some _ => .error .invalidKey

def putDocument (database : StoredDatabase) (name : String) (stored : StoredCollection)
    (key : String) (document : Json.Members) : StoredDatabase :=
  { database with
    collections := database.collections.insert name
      { stored with documents := stored.documents.insert key document } }

def createDocument (database : StoredDatabase) (fresh name : String) (body : Option Json) :
    Ruling (Granted StoredDatabase) := do
  let body ← documentBody body
  let stored ← database.collection name
  checkEdge stored body
  let (key, lastKey) ← database.chooseKey stored body
  let document := withIdentity body name key fresh
  grant 201 (.object (identityMembers document))
    { database.putDocument name stored key document with lastKey }

def readDocument (database : StoredDatabase) (name key : String) :
    Ruling (Granted StoredDatabase) := do
  let stored ← database.collection name
  match stored.documents.get? key with
  | some document => grant 200 (.object document) database
  | none => throw .documentNotFound

def checkRev (current body : Json.Members) : Ruling Unit :=
  match Assoc.get? "_rev" body with
  | some expected =>
    if expected.agrees ((Assoc.get? "_rev" current).getD .null) then .ok ()
    else .error (.revisionConflict current)
  | none => .ok ()

def replaceDocument (database : StoredDatabase) (fresh name key : String) (body : Option Json)
    (checksRev : Bool) : Ruling (Granted StoredDatabase) := do
  let body ← documentBody body
  let stored ← database.collection name
  checkEdge stored body
  match stored.documents.get? key with
  | none => throw .documentNotFound
  | some current =>
    if checksRev then checkRev current body
    let document := withIdentity body name key fresh
    let oldRev := (Assoc.get? "_rev" current).getD .null
    grant 201 (.object (Assoc.insert "_oldRev" oldRev (identityMembers document)))
      (database.putDocument name stored key document)

def deleteDocument (database : StoredDatabase) (name key : String) :
    Ruling (Granted StoredDatabase) := do
  let stored ← database.collection name
  match stored.documents.get? key with
  | none => throw .documentNotFound
  | some document =>
    grant 200 (.object (identityMembers document))
      { database with
        collections := database.collections.insert name
          { stored with documents := stored.documents.erase key } }

end StoredDatabase

end DocGraph
