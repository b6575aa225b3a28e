import DocGraph.Entity.Wire
import DocGraph.Table
/-!
# Registries

A registry knows the schemas of a database by the collections that hold their records, and so
finds the schema of a document by its handle.
-/

namespace DocGraph

structure Registry where
  schemas : Table Schema

namespace Registry

def empty : Registry := ⟨Table.empty⟩

/-- Adds a schema; each collection takes one, and embedded schemas have none. -/
def register (registry : Registry) (schema : Schema) : Except Error Registry :=
  if schema.kind = .embedded then
    .error (.invalidSchema (schema.name ++ " is an embedded schema and has no collection"))
  else if registry.schemas.contains schema.name then
    .error (.invalidSchema ("collection " ++ schema.name ++ " is already registered"))
  else .ok ⟨registry.schemas.insert schema.name schema⟩

def get? (registry : Registry) (collection : String) : Option Schema :=
  registry.schemas.get? collection

def schemaFor? (registry : Registry) (members : Json.Members) : Option Schema := do
  let handle ← (← Assoc.get? "_id" members).asString?
  let (collection, _) ← Text.cut? '/' handle
  registry.get? collection

def polymorph [CustomCodecs] (registry : Registry) (members : Json.Members) :
    Except Error (Drawn Entity) :=
  match (Assoc.get? "_id" members).bind Json.asString? with
  | none => .error (.missingField "_id")
  | some handle =>
    let collection := ((Text.cut? '/' handle).map (·.1)).getD handle
    match registry.get? collection with
    | some schema => schema.load members
    | none => .error (.unknownCollection collection)

end Registry

end DocGraph
