import DocGraph.Client.Collection
import DocGraph.Proofs.Streams.Poll
/-!
# Many cursors of one server

Clients make cursors, poll them and close them, in any order.  Beside every cursor stands what its
polls have brought, and how many cursors had sent their opening requests before it did: this number
tells which of the scripted results is its own.
-/

namespace DocGraph

/-- The hosts that can come to be: a server of its own, after requests from whomever, results
scripted on the way and failures injected. -/
inductive Host.Reached (draw : Nat → String) : Host → Prop where
  | start (databases : List String) : Reached draw ⟨Server.new databases, [], 0⟩
  | answer {host : Host} (h : Reached draw host) (request : Request) :
      Reached draw (host.answerFrom draw request).2
  | script {host : Host} (h : Reached draw host) (rows : List Json) (fullCount : Option UInt64) :
      Reached draw { host with server := host.server.script rows fullCount }
  | fail {host : Host} (h : Reached draw host) (failure : TransportError) :
      Reached draw { host with failures := host.failures ++ [failure] }

/-- What a cursor is made from: a query of a collection, all of a collection, or a query of a
database, whose rows are loaded or left as they are. -/
inductive CursorSource where
  | ofCollection (collection : Collection) (query : Query)
  | ofAll (collection : Collection)
  | ofDatabase (database : Database) (query : Query)
  | ofJson (database : Database) (query : Query)

section

variable [CustomCodecs]

def Database.decodeRow (database : Database) (query : Query) (row : Json) :
    Except Error (Drawn Entity) := do
  let members ← rowMembers row
  ((database.registry.schemaFor? members).getD query.resultSchema).load members

namespace CursorSource

def cursor : CursorSource → Except Error (Cursor (Drawn Entity ⊕ Json))
  | .ofCollection collection query => do return (← collection.query query).map .inl
  | .ofAll collection => do return (← collection.all).map .inl
  | .ofDatabase database query => do return (← database.query query).map .inl
  | .ofJson database query => do return (← database.queryJson query).map .inr

def config : CursorSource → Config
  | .ofCollection collection _ | .ofAll collection => collection.database.config
  | .ofDatabase database _ | .ofJson database _ => database.config

def query : CursorSource → Query
  | .ofCollection _ query | .ofDatabase _ query | .ofJson _ query => query
  | .ofAll collection => .ofSchema collection.schema

def decode : CursorSource → Json → Except Error (Drawn Entity ⊕ Json)
  | .ofCollection _ query, row => (Collection.decodeRow query.resultSchema row).map .inl
  | .ofAll collection, row => (Collection.decodeRow collection.schema row).map .inl
  | .ofDatabase database query, row => (database.decodeRow query row).map .inl
  | .ofJson .., row => .ok (.inr row)

/-- The database of a query is there, and so is every collection that the query binds. -/
def BindsExisting (source : CursorSource) (server : Server) : Prop :=
  ∃ database, server.databases.get? source.config.database = some database ∧
    ∀ compiled, source.query.compile = .ok compiled → compiled.BindsExisting database

end CursorSource

end

structure HeldCursor where
  source : CursorSource
  cursor : Cursor (Drawn Entity ⊕ Json)
  polls : List (Cursor.Poll (Drawn Entity ⊕ Json))
  /-- How many cursors had sent their opening requests before it, once it has sent its own. -/
  turn? : Option Nat
  /-- The identifier that it was given, if the server ever kept rows for it. -/
  filed? : Option String
  isClosed : Bool

/-- A server and the cursors of its clients, `opened` of which have sent their opening requests. -/
structure Streams where
  host : Host
  opened : Nat
  cursors : List HeldCursor

namespace Streams

/-- What a client does next; the cursors are numbered in the order in which they were made. -/
inductive Move where
  | make (source : CursorSource)
  /-- A poll may ask `spare` requests more than the one that it needs. -/
  | poll (index spare : Nat)
  | close (index : Nat)

variable [CustomCodecs] (draw : Nat → String)

def start (host : Host) : Streams := ⟨host, 0, []⟩

def make (streams : Streams) (source : CursorSource) : Streams :=
  match source.cursor with
  | .ok cursor =>
    { streams with cursors := streams.cursors ++ [⟨source, cursor, [], none, none, false⟩] }
  | .error _ => streams

def poll (streams : Streams) (index spare : Nat) (held : HeldCursor) : Streams :=
  let ((poll, cursor), host) :=
    (held.cursor.next (spare + 1)).run (Host.answerFrom draw) streams.host
  let opens := held.cursor.initial.isSome && cursor.initial.isNone
  { host
    opened := if opens then streams.opened + 1 else streams.opened
    cursors := streams.cursors.set index { held with
      cursor
      polls := held.polls ++ [poll]
      turn? := if opens then some streams.opened else held.turn?
      filed? := held.filed?.or cursor.id } }

def close (streams : Streams) (index : Nat) (held : HeldCursor) : Streams :=
  { streams with
    host := (held.cursor.close.run.run (Host.answerFrom draw) streams.host).2
    cursors := streams.cursors.set index { held with isClosed := true } }

def held? (streams : Streams) (index : Nat) : Option HeldCursor :=
  streams.cursors[index]?.filter fun held => !held.isClosed

def play (streams : Streams) : Move → Streams
  | .make source => streams.make source
  | .poll index spare =>
    match streams.held? index with
    | some held => streams.poll draw index spare held
    | none => streams
  | .close index =>
    match streams.held? index with
    | some held => streams.close draw index held
    | none => streams

def run (streams : Streams) (moves : List Move) : Streams := moves.foldl (play draw) streams

end Streams

/-! ## What cursors deliver -/

def Cursor.Poll.isItem {α : Type} : Cursor.Poll α → Bool
  | .item _ => true
  | _ => false

namespace HeldCursor

/-- How many rows the server has handed to the client, buffered ones included. -/
def handed (held : HeldCursor) : Nat :=
  held.polls.countP Cursor.Poll.isItem + held.cursor.rows.length

/-- Every poll has brought the next of the rows that were scripted for the cursor's turn, decoded,
and nothing once there were no more; a row that cannot be decoded brings its own error. -/
def DeliversOnce [CustomCodecs] (start : Host) (held : HeldCursor) : Prop :=
  match held.turn? with
  | none => held.polls = []
  | some turn =>
    ∀ (n : Nat) (poll : Cursor.Poll (Drawn Entity ⊕ Json)), held.polls[n]? = some poll →
      poll = Cursor.expected held.source.decode (start.server.scriptedRows turn)[n]?

/-- The server keeps rows for a cursor exactly while it is opened, not closed, and rows remain
beyond those that were handed to the client. -/
def KeptWhileNeeded (start : Host) (server : Server) (held : HeldCursor) : Prop :=
  (∃ id, held.filed? = some id ∧ (server.cursors.get? id).isSome) ↔
    ∃ turn, held.turn? = some turn ∧ held.isClosed = false ∧
      held.handed < (start.server.scriptedRows turn).length

end HeldCursor

/-- What is promised of all cursors together: apart from what each of them delivers, no scripted
result goes to two of them, and neither does an identifier. -/
structure Streams.Delivers [CustomCodecs] (start : Host) (streams : Streams) : Prop where
  once : ∀ held ∈ streams.cursors, held.DeliversOnce start
  kept : ∀ held ∈ streams.cursors, held.KeptWhileNeeded start streams.host.server
  turns : ∀ (i k : Nat) (held other : HeldCursor) (turn : Nat),
    streams.cursors[i]? = some held → streams.cursors[k]? = some other →
    held.turn? = some turn → other.turn? = some turn → i = k
  apart : ∀ (i k : Nat) (held other : HeldCursor) (id : String),
    streams.cursors[i]? = some held → streams.cursors[k]? = some other →
    held.filed? = some id → other.filed? = some id → i = k
  /-- A cursor takes the identifier of none that was there from the start. -/
  fresh : ∀ held ∈ streams.cursors, ∀ id, held.filed? = some id →
    start.server.cursors.get? id = none
  /-- What else the server keeps was there from the start. -/
  others : ∀ id, (∀ held ∈ streams.cursors, held.filed? ≠ some id) →
    streams.host.server.cursors.get? id = start.server.cursors.get? id

end DocGraph
