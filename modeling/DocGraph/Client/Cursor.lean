import DocGraph.Http.Exchange
import DocGraph.Http.Path
import DocGraph.Json.Reader
import DocGraph.Text.Quoted
/-!
# Cursors

A cursor hands out the rows of a query and fetches the next batch only when it has none left.
One step of a cursor hands out a row, asks for a batch, or finds that there is nothing more; polling
repeats steps, with a bound on the requests it may take.
-/

namespace DocGraph

structure Batch where
  rows : List Json
  hasMore : Bool
  id : Option String
  count : Option UInt64
  fullCount : Option UInt64

namespace Batch

open Json

variable {σ : Type} [Readable σ]

/-- Reads the number of rows that a query has without its last limit. -/
def readStats (s : σ) : Option (Option UInt64) := do
  (← Read.fields ["fullCount"] s).optional "fullCount" Read.uint64

def readExtra (s : σ) : Option (Option UInt64) := do
  (← Read.fields ["stats"] s).withDefault "stats" none readStats

def read (s : σ) : Option Batch := do
  let fields ← Read.fields ["result", "hasMore", "id", "count", "extra"] s
  return ⟨← fields.withDefault "result" [] (Read.list (Read.value maxDepth)),
    ← fields.withDefault "hasMore" false Read.bool,
    ← fields.withDefault "id" none (Read.nullable Read.string),
    ← fields.withDefault "count" none (Read.nullable Read.uint64),
    ← fields.withDefault "extra" none readExtra⟩

end Batch

structure Cursor (α : Type) where
  database : String
  decode : Json → Except Error α
  /-- The request that opens the cursor, until it is sent. -/
  initial : Option Request
  rows : List Json
  id : Option String
  hasMore : Bool
  isDone : Bool
  count : Option UInt64
  fullCount : Option UInt64

namespace Cursor

variable {α : Type}

def new (database : String) (request : Request) (decode : Json → Except Error α) : Cursor α :=
  ⟨database, decode, some request, [], none, false, false, none, none⟩

def map {β : Type} (f : α → β) (cursor : Cursor α) : Cursor β :=
  { cursor with decode := fun row => (cursor.decode row).map f }

inductive Step (α : Type) where
  | row (item : Except Error α) (cursor : Cursor α)
  | fetch (request : Request) (cursor : Cursor α)
  | finished (cursor : Cursor α)

def path (cursor : Cursor α) (id : String) : String :=
  Http.apiPath cursor.database ["cursor", id]

/-- One step: buffered rows first, then the opening request, then the next batch. -/
def step (cursor : Cursor α) : Step α :=
  match cursor.rows with
  | row :: rows => .row (cursor.decode row) { cursor with rows }
  | [] =>
    if cursor.isDone then .finished cursor
    else
      match cursor.initial, cursor.hasMore, cursor.id with
      | some request, _, _ => .fetch request { cursor with initial := none }
      | none, true, some id => .fetch (Request.plain .put (cursor.path id)) cursor
      | _, _, _ => .finished { cursor with isDone := true }

/-- The cursor with a batch; an identifier counts only while there is more. -/
def absorb (cursor : Cursor α) (batch : Batch) : Cursor α :=
  { cursor with
    rows := cursor.rows ++ batch.rows
    hasMore := batch.hasMore
    id := if batch.hasMore then batch.id else none
    count := batch.count.or cursor.count
    fullCount := batch.fullCount.or cursor.fullCount }

def batchOf (answer : Answer) : Except Error Batch := do
  match answer with
  | .error error => throw (.transport error)
  | .ok response =>
    match Batch.read (← response.check "cursor") with
    | some batch => return batch
    | none => throw .unreadable

def receive (cursor : Cursor α) (answer : Answer) : Option Error × Cursor α :=
  match batchOf answer with
  | .ok batch => (none, cursor.absorb batch)
  | .error error => (some error, { cursor with isDone := true })

inductive Poll (α : Type) where
  | item (item : Except Error α)
  | finished
  /-- More requests would be needed than were allowed. -/
  | waiting

/-- Polls a cursor, with at most `patience` requests. -/
def next (patience : Nat) (cursor : Cursor α) : Exchange (Poll α × Cursor α) :=
  match cursor.step with
  | .row item cursor => .done (.item item, cursor)
  | .finished cursor => .done (.finished, cursor)
  | .fetch request cursor =>
    match patience with
    | 0 => .done (.waiting, cursor)
    | patience + 1 =>
      .ask request fun answer =>
        match cursor.receive answer with
        | (some error, cursor) => .done (.item (.error error), cursor)
        | (none, cursor) => cursor.next patience
termination_by structural patience

def stops (stopsAtError : Bool) (item : Except Error α) : Bool :=
  stopsAtError && !item.isOk

/-- Reads a cursor to its end, or to the first error, in at most `patience` steps. -/
def drain (stopsAtError : Bool) (patience : Nat) (cursor : Cursor α) :
    Exchange (List (Except Error α) × Cursor α) :=
  match patience with
  | 0 => .done ([], cursor)
  | patience + 1 =>
    let proceed := fun (item : Except Error α) (cursor : Cursor α) =>
      if stops stopsAtError item then .done ([item], cursor)
      else do
        let (items, cursor) ← cursor.drain stopsAtError patience
        return (item :: items, cursor)
    match cursor.step with
    | .row item cursor => proceed item cursor
    | .finished cursor => .done ([], cursor)
    | .fetch request cursor =>
      .ask request fun answer =>
        match cursor.receive answer with
        | (some error, cursor) => proceed (.error error) cursor
        | (none, cursor) => cursor.drain stopsAtError patience
termination_by structural patience

def collect (patience : Nat) (cursor : Cursor α) : Client (List α) := do
  let (items, _) ← (cursor.drain true patience : Exchange _)
  items.mapM (fun item => (item : Except Error α))

def close (cursor : Cursor α) : Client Unit := do
  match cursor.hasMore, cursor.id with
  | true, some id =>
    let request := Request.plain .delete (cursor.path id)
    match ← (Client.send request ("cursor " ++ id)).attempt with
    | .ok _ | .error (.notFound ..) => return ()
    | .error error => throw error
  | _, _ => return ()

def first (patience : Nat) (cursor : Cursor α) : Client (Option α) := do
  let (poll, cursor) ← (cursor.next patience : Exchange _)
  cursor.close
  match poll with
  | .item item => return some (← item)
  | .finished | .waiting => return none

def describe (cursor : Cursor α) : String :=
  let id := match cursor.id with
    | some id => "Some(" ++ Text.quoted id ++ ")"
    | none => "None"
  "Cursor \x7b database: " ++ Text.quoted cursor.database ++ ", id: " ++ id
    ++ ", buffered: " ++ toString cursor.rows.length
    ++ ", has_more: " ++ toString cursor.hasMore ++ ", done: " ++ toString cursor.isDone
    ++ " \x7d"

end Cursor

end DocGraph
