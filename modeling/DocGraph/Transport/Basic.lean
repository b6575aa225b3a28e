import DocGraph.Http.Exchange
import DocGraph.Number.Instances
import DocGraph.Server.Handle
/-!
# Transports

A transport carries requests and logs them.  It either ends at a server in memory, where
failures can be injected, or plays back answers that were written down in advance.
-/

namespace DocGraph

/-- A server with what is needed to run it: the failures that the next requests will meet, and
the number of revisions drawn so far. -/
structure Host where
  server : Server
  failures : List TransportError
  revisions : Nat

namespace Host

def revision (number : Nat) : String := "_rev" ++ toString number

/-- Answers a request: the first injected failure is used up, or else the server handles it. -/
def answer (host : Host) (request : Request) : Answer × Host :=
  match host.failures with
  | failure :: failures => (.error failure, { host with failures })
  | [] =>
    let outcome := host.server.handle (revision (host.revisions + 1)) request
    (.ok outcome.response,
      { host with
        server := outcome.server
        revisions := if outcome.usesRevision then host.revisions + 1 else host.revisions })

end Host

inductive Peer where
  | host (host : Host)
  | script (answers : List Answer)

structure Transport where
  peer : Peer
  log : List Request

namespace Transport

def defaultDatabase : String := "_system"

def toServer (databases : List String) : Transport :=
  let databases := if databases.isEmpty then [defaultDatabase] else databases
  ⟨.host ⟨Server.new databases, [], 0⟩, []⟩

def ofScript (answers : List Answer) : Transport := ⟨.script answers, []⟩

def Peer.answer : Peer → Request → Answer × Peer
  | .host host, request =>
    let (answer, host) := host.answer request
    (answer, .host host)
  | .script (answer :: answers), _ => (answer, .script answers)
  | .script [], _ => (.error (.connection "script exhausted"), .script [])

def execute (transport : Transport) (request : Request) : Answer × Transport :=
  let (answer, peer) := Peer.answer transport.peer request
  (answer, ⟨peer, request :: transport.log⟩)

def hold {α : Type} (transport : Transport) (exchange : Exchange α) : α × Transport :=
  exchange.run execute transport

def answerRows : Answer → Nat
  | .ok response =>
    match response.body with
    | .array (.array rows :: _) => rows.length
    | body => (((body.member? "result").bind Json.asArray?).getD []).length
  | .error _ => 0

def Peer.pending : Peer → Nat
  | .host host =>
    (host.server.scripted.map (·.rows.length)).sum
      + (host.server.cursors.values.map (·.rows.length)).sum
  | .script answers => answers.length + (answers.map answerRows).sum

/-- A number of steps in which any cursor with some buffered rows comes to its end.  Each step
hands out a row or brings an answer.  An answer of a script is counted by itself; one of a server
brings a row, unless it is the first or the last that the cursor gets. -/
def patience (transport : Transport) (buffered : Nat) : Nat :=
  2 * (Peer.pending transport.peer + buffered) + 4

end Transport

end DocGraph
