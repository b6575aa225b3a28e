import DocGraph.Proofs.Client.Collection
import DocGraph.Proofs.Entity.Identity
import DocGraph.Proofs.Server.Handle
import DocGraph.Transport.Basic
/-!
# Many clients of one server

A world is a server together with all entities that its clients hold.  It moves by what one client
does at a time: an entity is made or changed locally, or a call asks the server something.  What
the server is asked and what the entity makes of the answer is one move, since an entity is in
nobody else's hands meanwhile; a call whose answer never arrives is a bare request.

Revisions are drawn from a source `draw`; the server draws them in order.
-/

namespace DocGraph

/-- Answers a request as `Host.answer` does, with revisions from a source. -/
def Host.answerFrom (draw : Nat → String) (host : Host) (request : Request) : Answer × Host :=
  match host.failures with
  | failure :: failures => (.error failure, { host with failures })
  | [] =>
    let outcome := host.server.handle (draw (host.revisions + 1)) request
    (.ok outcome.response,
      { host with
        server := outcome.server
        revisions := if outcome.usesRevision then host.revisions + 1 else host.revisions })

theorem Host.answer_eq_answerFrom : Host.answer = Host.answerFrom Host.revision := rfl

/-- A collection of documents or edges, not of their parts. -/
structure Store where
  collection : Collection
  built : collection.schema.build = .ok collection.schema
  stored : collection.schema.kind ≠ .embedded

def Store.place (store : Store) (key : String) : Place :=
  ⟨store.collection.database.config.database, store.collection.name, key⟩

/-- A document as an entity last read or wrote it. -/
structure Adoption where
  place : Place
  document : Json.Members

structure HeldEntity where
  entity : Entity
  adoption? : Option Adoption

structure World where
  host : Host
  entities : List HeldEntity

inductive Mutation where
  | set (name : String) (value : Value)
  | remove (name : String)
  | setKey (key : String)
  | setSource (endpoint : Endpoint)
  | setTarget (endpoint : Endpoint)
  | connect (source target : Endpoint)

def Mutation.Result : Mutation → Type
  | .remove _ => Option Value
  | _ => Unit

def Mutation.edit : (mutation : Mutation) → Entity.Edit mutation.Result
  | .set name value => .set name value
  | .remove name => .remove name
  | .setKey key => .setKey key
  | .setSource endpoint => .setSource endpoint
  | .setTarget endpoint => .setTarget endpoint
  | .connect source target => .connect source target

/-- Makes a change: what it brings or why it failed, and the entity afterwards. -/
def Mutation.perform (mutation : Mutation) (entity : Entity) :
    Except Error mutation.Result × Entity :=
  mutation.edit.perform entity

def Mutation.apply (mutation : Mutation) (entity : Entity) : Entity :=
  (mutation.perform entity).2

/-- What a client does next; the entities are numbered in the order in which they were made. -/
inductive Move where
  | new (schema : Schema) (moment : Moment)
  | copy (index : Nat)
  | mutate (index : Nat) (mutation : Mutation)
  | create (index : Nat) (store : Store)
  | get (store : Store) (key : String) (moment : Moment)
  | update (index : Nat) (store : Store)
  | refresh (index : Nat) (store : Store) (moment : Moment)
  | delete (index : Nat) (store : Store)
  /-- Any other request, from whomever. -/
  | request (request : Request)
  /-- The next request will fail on its way. -/
  | fail (failure : TransportError)

/-- What an entity has read or written when an operation on a store succeeded. -/
def Host.adoption? (host : Host) (store : Store) (entity : Entity) : Option Adoption := do
  let key ← entity.identity.key
  let document ← host.server.documentAt? (store.place key)
  return ⟨store.place key, document⟩

namespace World

variable [CustomCodecs] (draw : Nat → String)

def start (databases : List String) : World := ⟨⟨Server.new databases, [], 0⟩, []⟩

def outcome {α : Type} (world : World) (client : EntityClient α) (entity : Entity) :
    (Except Error α × Entity) × Host :=
  (client.about entity).run (Host.answerFrom draw) world.host

def call {α : Type} (world : World) (index : Nat) (store : Store) (client : EntityClient α) :
    World :=
  match world.entities[index]? with
  | none => world
  | some held =>
    let ((result, entity), host) := world.outcome draw client held.entity
    let adoption? := if result.isOk then host.adoption? store entity else held.adoption?
    ⟨host, world.entities.set index ⟨entity, adoption?⟩⟩

def fetch (world : World) (store : Store) (key : String) (moment : Moment) : World :=
  match (store.collection.get key).run.run (Host.answerFrom draw) world.host with
  | (.ok entity, host) =>
    ⟨host, world.entities ++ [⟨entity moment, host.adoption? store (entity moment)⟩]⟩
  | (.error _, host) => ⟨host, world.entities⟩

def play (world : World) : Move → World
  | .new schema moment =>
    { world with entities := world.entities ++ [⟨Entity.new schema moment, none⟩] }
  | .copy index => { world with entities := world.entities ++ world.entities[index]?.toList }
  | .mutate index mutation =>
    { world with
      entities := world.entities.modify index fun held =>
        { held with entity := mutation.apply held.entity } }
  | .create index store => world.call draw index store store.collection.create
  | .get store key moment => world.fetch draw store key moment
  | .update index store => world.call draw index store store.collection.update
  | .refresh index store moment =>
    world.call draw index store (store.collection.refresh moment)
  | .delete index store => world.call draw index store store.collection.delete
  | .request request => { world with host := (world.host.answerFrom draw request).2 }
  | .fail failure =>
    { world with host := { world.host with failures := world.host.failures ++ [failure] } }

def run (world : World) (moves : List Move) : World := moves.foldl (play draw) world

end World

end DocGraph
