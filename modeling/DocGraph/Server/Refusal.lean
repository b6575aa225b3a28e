import DocGraph.Http.Message
/-!
# Refusals

Why the server refuses a request.  A refusal becomes a response with a status, a number and a text;
the one about an outdated revision also carries the identity of the current document.
-/

namespace DocGraph

def identityMembers (document : Json.Members) : Json.Members :=
  ["_id", "_key", "_rev"].filterMap fun name => (Assoc.get? name document).map (name, ·)

inductive Refusal where
  | unknownPath
  | databaseNotFound
  | collectionNotFound
  | documentNotFound
  | cursorNotFound
  | graphNotFound
  | invalidDocument
  | invalidKey
  | invalidEdge
  | duplicateKey
  | revisionConflict (current : Json.Members)
  | bodyNotObject
  | emptyQuery
  | unparsableQuery
  | invalidCollection
  | duplicateName
  | graphNameMissing
  | duplicateGraph
  | collectionMissing
  | invalidIndex

namespace Refusal

/-- The status, the number and the text of a refusal. -/
def describe : Refusal → Nat × Nat × String
  | unknownPath => (404, 404, "unknown path")
  | databaseNotFound => (404, 1228, "database not found")
  | collectionNotFound => (404, 1203, "collection or view not found")
  | documentNotFound => (404, 1202, "document not found")
  | cursorNotFound => (404, 1600, "cursor not found")
  | graphNotFound => (404, 1924, "graph not found")
  | invalidDocument => (400, 1227, "invalid document type")
  | invalidKey => (400, 1227, "invalid document key")
  | invalidEdge => (400, 1233, "edge attribute missing or invalid")
  | duplicateKey => (409, 1210, "unique constraint violated")
  | revisionConflict _ => (412, 1200, "conflict, _rev values do not match")
  | bodyNotObject => (400, 10, "expecting JSON object body")
  | emptyQuery => (400, 1501, "query is empty")
  | unparsableQuery => (400, 1501, "syntax error, unexpected end of query string")
  | invalidCollection => (400, 10, "invalid collection definition")
  | duplicateName => (409, 1207, "duplicate name")
  | graphNameMissing => (400, 10, "graph name missing")
  | duplicateGraph => (409, 1925, "graph already exists")
  | collectionMissing => (400, 10, "collection parameter missing")
  | invalidIndex => (400, 10, "invalid index definition")

def details : Refusal → Json.Members
  | revisionConflict current => identityMembers current
  | _ => []

def response (refusal : Refusal) : Response :=
  let (status, errorNum, message) := refusal.describe
  ⟨status, .ofMembers ([
    ("error", .bool true),
    ("code", .ofNat status),
    ("errorNum", .ofNat errorNum),
    ("errorMessage", .string message)] ++ refusal.details)⟩

end Refusal

end DocGraph
