import DocGraph.Entity.Basic
import DocGraph.Handle
import DocGraph.Schema.Dump
import DocGraph.Schema.Load
/-!
# Loading and dumping entities

The identity of a document and the ends of an edge stand beside the fields of the record, under
reserved names.
-/

namespace DocGraph

/-- The text of a reserved attribute; null counts as missing. -/
def identityAttribute (members : Json.Members) (name : String) :
    Except Error (Option String) :=
  match Assoc.get? name members with
  | none | some .null => .ok none
  | some (.string s) => .ok (some s)
  | some other => .error (.invalidValue name "string" other.kindName)

def requiredAttribute (members : Json.Members) (name : String) : Except Error String := do
  match ← identityAttribute members name with
  | some s => return s
  | none => throw (.missingField name)

def resolveEndpoint (side : String) : Option Endpoint → Except Error String
  | some (.id handle) =>
    if isDocumentHandle handle then .ok handle
    else .error (.invalidReference (side ++ " is not a document handle: " ++ Text.quoted handle))
  | some (.unresolved collection) =>
    .error (.invalidReference
      (side ++ " references a document of " ++ collection ++ " that has no _id"))
  | none => .error (.invalidReference (side ++ " is not set"))

def Identity.members (identity : Identity) : Json.Members :=
  [("_id", identity.id), ("_key", identity.key), ("_rev", identity.rev)].filterMap
    fun (name, value) => value.map fun s => (name, .string s)

namespace Schema

variable [CustomCodecs]

def load (schema : Schema) (members : Json.Members) : Except Error (Drawn Entity) := do
  let record ← schema.loadRecord members
  let key ← identityAttribute members "_key"
  let id ← identityAttribute members "_id"
  let rev ← identityAttribute members "_rev"
  let state := if rev.isSome then EntityState.persisted else .unbound
  if schema.isEdge then
    let source ← requiredAttribute members "_from"
    let target ← requiredAttribute members "_to"
    return fun moment =>
      ⟨record moment, ⟨key, id, rev⟩, some (.id source), some (.id target), state⟩
  else return fun moment => ⟨record moment, ⟨key, id, rev⟩, none, none, state⟩

def dumpEndpoints (schema : Schema) (entity : Entity) (members : Json.Members) :
    Except Error Json.Members := do
  if schema.isEdge then
    let source ← resolveEndpoint "_from" entity.source
    let target ← resolveEndpoint "_to" entity.target
    return Assoc.insert "_to" (.string target) (Assoc.insert "_from" (.string source) members)
  else return members

def dump (schema : Schema) (entity : Entity) : Except Error Json.Members := do
  let record ← entity.liveRecord
  schema.dumpRecord record (← schema.dumpEndpoints entity entity.identity.members)

end Schema

end DocGraph
