import DocGraph.Handle
import DocGraph.Record.Basic
/-!
# Entities

An entity is a record together with the identity that the server gave it, the ends of an edge,
and its place in the life of a document.  An edit answers together with the entity as it is
afterwards, so that a failed edit can be seen to leave it alone.
-/

namespace DocGraph

structure Identity where
  key : Option String
  id : Option String
  rev : Option String
deriving DecidableEq

def Identity.empty : Identity := ⟨none, none, none⟩

/-- An end of an edge: a document handle, or a collection whose document has none yet. -/
inductive Endpoint where
  | id (handle : String)
  | unresolved (collection : String)
deriving DecidableEq

inductive EntityState where
  /-- Never stored. -/
  | unbound
  /-- As it was last read or written. -/
  | persisted
  /-- Changed since. -/
  | stale
  | deleted
deriving DecidableEq

def EntityState.name : EntityState → String
  | unbound => "Unbound"
  | persisted => "Persisted"
  | stale => "Stale"
  | deleted => "Deleted"

structure Entity where
  record : Record
  identity : Identity
  source : Option Endpoint
  target : Option Endpoint
  state : EntityState

namespace Entity

/-- An edit of an entity: an answer or an error, and the entity as it is afterwards. -/
abbrev Edit (α : Type) := ExceptT Error (StateM Entity) α

def new (schema : Schema) : Drawn Entity := fun moment =>
  ⟨Record.new schema moment, Identity.empty, none, none, .unbound⟩

def schema (entity : Entity) : Schema := entity.record.schema

def isDirty (entity : Entity) : Bool :=
  entity.state == .unbound || entity.state == .stale

def handle (entity : Entity) : String :=
  match entity.identity.id, entity.identity.key with
  | some id, _ => id
  | none, some key => documentHandle entity.schema.name key
  | none, none => documentHandle entity.schema.name "<unbound>"

def endpoint (entity : Entity) : Endpoint :=
  match entity.identity.id with
  | some id => .id id
  | none => .unresolved entity.schema.name

def ensureLive (entity : Entity) : Except Error Unit :=
  if entity.state = .deleted then .error (.entityDeleted entity.handle) else .ok ()

def ensureEdge (entity : Entity) (side : String) : Except Error Unit := do
  entity.ensureLive
  if entity.schema.isEdge then return ()
  else throw (.unknownField side entity.schema.name)

def liveRecord (entity : Entity) : Except Error Record := do
  entity.ensureLive
  return entity.record

def get? (entity : Entity) (name : String) : Except Error (Option Value) := do
  entity.ensureLive
  entity.record.get? name

def contains (entity : Entity) (name : String) : Except Error Bool := do
  entity.ensureLive
  return entity.record.contains name

def touch (entity : Entity) : Entity :=
  if entity.state = .persisted then { entity with state := .stale } else entity

def markPersisted (entity : Entity) (identity : Identity) : Entity :=
  { entity with
    identity := ⟨identity.key.or entity.identity.key, identity.id.or entity.identity.id,
      identity.rev.or entity.identity.rev⟩
    state := .persisted }

def markDeleted (entity : Entity) : Entity := { entity with state := .deleted }

namespace Edit

def set (name : String) (value : Value) : Edit Unit := do
  let entity ← get
  entity.ensureLive
  let record ← entity.record.set name value
  modify fun entity => { entity with record }.touch

def remove (name : String) : Edit (Option Value) := do
  let entity ← get
  entity.ensureLive
  let (previous, record) ← entity.record.remove name
  modify fun entity => { entity with record }.touch
  return previous

def setKey (key : String) : Edit Unit := do
  let entity ← get
  if entity.state = .unbound then
    modify fun entity => { entity with identity := { entity.identity with key := some key } }
  else
    throw (.invalidSchema ("cannot change the key of persisted entity " ++ entity.handle))

def setSource (endpoint : Endpoint) : Edit Unit := do
  let entity ← get
  entity.ensureEdge "_from"
  modify fun entity => { entity with source := some endpoint }.touch

def setTarget (endpoint : Endpoint) : Edit Unit := do
  let entity ← get
  entity.ensureEdge "_to"
  modify fun entity => { entity with target := some endpoint }.touch

def connect (source target : Endpoint) : Edit Unit := do
  setSource source
  setTarget target

def perform {α : Type} (edit : Edit α) (entity : Entity) : Except Error α × Entity :=
  edit.run entity

end Edit

end Entity

end DocGraph
