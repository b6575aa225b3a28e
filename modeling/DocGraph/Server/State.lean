import DocGraph.CollectionType
import DocGraph.Json.Basic
import DocGraph.Server.Refusal
import DocGraph.Table
/-!
# The state of the server

The server keeps documents by database, collection and key; it keeps the cursors whose rows were
not all fetched, and a queue of results that queries are answered with.
-/

namespace DocGraph

structure StoredCollection where
  type : CollectionType
  isSystem : Bool
  documents : Table Json.Members
  indexes : List Json.Members

structure StoredDatabase where
  collections : Table StoredCollection
  graphs : Table Json
  /-- The last number that was tried as a key. -/
  lastKey : Nat

structure StoredCursor where
  rows : List Json
  batchSize : Nat

structure ScriptedResult where
  rows : List Json
  fullCount : Option UInt64

structure Server where
  databases : Table StoredDatabase
  cursors : Table StoredCursor
  /-- The number of the last cursor that was opened. -/
  lastCursor : Nat
  scripted : List ScriptedResult

/-- A granted request: the response and what it leaves behind. -/
structure Granted (σ : Type) where
  response : Response
  state : σ

abbrev Ruling := Except Refusal

def grant {σ : Type} (status : Nat) (body : Json) (state : σ) : Ruling (Granted σ) :=
  .ok ⟨⟨status, body⟩, state⟩

namespace StoredCollection

def empty (type : CollectionType) (isSystem : Bool) : StoredCollection :=
  ⟨type, isSystem, Table.empty, []⟩

def describe (collection : StoredCollection) (name : String) : Json :=
  .ofMembers [
    ("name", .string name),
    ("type", .ofNat collection.type.number),
    ("isSystem", .bool collection.isSystem),
    ("status", .ofNat 3)]

end StoredCollection

/-- A database as it is created, with the collection in which the server itself keeps graphs. -/
def StoredDatabase.new : StoredDatabase :=
  ⟨Table.empty.insert "_graphs" (.empty .document true), Table.empty, 0⟩

namespace Server

def new (databases : List String) : Server :=
  ⟨Table.ofList (databases.map (·, StoredDatabase.new)), Table.empty, 0, []⟩

def script (server : Server) (rows : List Json) (fullCount : Option UInt64) : Server :=
  { server with scripted := server.scripted ++ [⟨rows, fullCount⟩] }

def document? (server : Server) (database collection key : String) : Option Json.Members := do
  let database ← server.databases.get? database
  let collection ← database.collections.get? collection
  collection.documents.get? key

def openCursors (server : Server) : Nat := server.cursors.size

end Server

end DocGraph
