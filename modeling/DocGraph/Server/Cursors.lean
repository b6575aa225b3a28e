import DocGraph.Server.State
import DocGraph.Text.Parts
/-!
# Cursors on the server

A query is answered with the next queued result.  Rows are handed out in batches, and a cursor is
kept exactly as long as rows remain.
-/

namespace DocGraph

namespace Server

def defaultBatchSize : Nat := 1000

def batchSize (body : Json.Members) : Nat :=
  match (Assoc.get? "batchSize" body).bind Json.asUInt64? with
  | some size => max size.toNat 1
  | none => defaultBatchSize

def collectionsExist (database : StoredDatabase) (body : Json.Members) : Bool :=
  (((Assoc.get? "bindVars" body).bind Json.asObject?).getD []).all fun (name, value) =>
    name.toList.head? ≠ some '@' ||
      match value.asString? with
      | some collection => database.collections.contains collection
      | none => false

def queryText? (body : Json.Members) : Option String :=
  match (Assoc.get? "query" body).bind Json.asString? with
  | some text => if text = "" then none else some text
  | none => none

def isTrue (value : Option Json) : Bool := ((value.bind Json.asBool?).getD false)

def openCursor (server : Server) (database : StoredDatabase) (body : Option Json) :
    Ruling (Granted Server) := do
  match body.bind Json.asObject? with
  | none => throw .bodyNotObject
  | some body =>
    if (queryText? body).isNone then throw .emptyQuery
    if !collectionsExist database body then throw .collectionNotFound
    let result := server.scripted.head?.getD ⟨[], none⟩
    let total := UInt64.ofNat result.rows.length
    let size := batchSize body
    let rest := result.rows.drop size
    let server := { server with scripted := server.scripted.tail }
    let count := if isTrue (Assoc.get? "count" body) then [("count", Json.ofUInt64 total)] else []
    let stats :=
      if isTrue ((Assoc.get? "options" body).bind (Json.member? "fullCount")) then
        [("fullCount", Json.ofUInt64 (result.fullCount.getD total))]
      else []
    let id := toString (server.lastCursor + 1)
    let members := [
      ("result", .array (result.rows.take size)),
      ("hasMore", .bool (!rest.isEmpty)),
      ("extra", .ofMembers [("stats", .ofMembers stats)])] ++ count
    if rest.isEmpty then grant 201 (.ofMembers members) server
    else
      grant 201 (.ofMembers (members ++ [("id", .string id)]))
        { server with
          lastCursor := server.lastCursor + 1
          cursors := server.cursors.insert id ⟨rest, size⟩ }

def nextBatch (server : Server) (id : String) : Ruling (Granted Server) :=
  match server.cursors.get? id with
  | none => throw .cursorNotFound
  | some cursor =>
    let rest := cursor.rows.drop cursor.batchSize
    grant 200 (.ofMembers [
      ("result", .array (cursor.rows.take cursor.batchSize)),
      ("hasMore", .bool (!rest.isEmpty)),
      ("id", .string id)])
      { server with
        cursors :=
          if rest.isEmpty then server.cursors.erase id
          else server.cursors.insert id { cursor with rows := rest } }

def closeCursor (server : Server) (id : String) : Ruling (Granted Server) :=
  match server.cursors.get? id with
  | none => throw .cursorNotFound
  | some _ =>
    grant 202 (.ofMembers [("id", .string id), ("error", .bool false), ("code", .ofNat 202)])
      { server with cursors := server.cursors.erase id }

def parameterNames (text : String) : List String :=
  let isToken := fun c : Char => c.isAlphanum || c = '_' || c = '@'
  let names := (Text.runs isToken text.toList).filterMap fun
    | '@' :: name => some (String.ofList name, ())
    | _ => none
  (Assoc.ofList names).map (·.1)

def parseQuery {σ : Type} (body : Option Json) (state : σ) : Ruling (Granted σ) :=
  let text := ((body.bind (Json.member? "query")).bind Json.asString?).getD ""
  if Text.occursIn "RETURN".toList text.toList then
    grant 200 (.ofMembers [
      ("parsed", .bool true),
      ("bindVars", .array ((parameterNames text).map .string)),
      ("error", .bool false),
      ("code", .ofNat 200)]) state
  else throw .unparsableQuery

end Server

end DocGraph
