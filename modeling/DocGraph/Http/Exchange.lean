import DocGraph.Http.Message
/-!
# Exchanges

An exchange is a conversation with a server: it is over, or it asks a request and goes on with
whatever comes back.  What an operation does is thus stated without a server, and the same
operation can be held with any transport.  Conversations held one after the other pass the
transport on (`run_andThen`).
-/

namespace DocGraph

abbrev Answer := Except TransportError Response

/-- A conversation that ends with a result. -/
inductive Exchange (α : Type) where
  | done (result : α)
  | ask (request : Request) (resume : Answer → Exchange α)

namespace Exchange

variable {α β σ : Type}

def andThen : Exchange α → (α → Exchange β) → Exchange β
  | done result, next => next result
  | ask request resume, next => ask request fun answer => (resume answer).andThen next
termination_by structural exchange => exchange

instance : Monad Exchange where
  pure := done
  bind := andThen

def execute (request : Request) : Exchange Answer := ask request done

/-- Holds a conversation with a transport, which answers requests and changes by them. -/
def run (answer : σ → Request → Answer × σ) : Exchange α → σ → α × σ
  | done result, transport => (result, transport)
  | ask request resume, transport =>
    let (reply, transport) := answer transport request
    (resume reply).run answer transport
termination_by structural exchange => exchange

theorem andThen_done (exchange : Exchange α) : exchange.andThen done = exchange := by
  induction exchange with
  | done _ => rfl
  | ask request _ ih => exact congrArg (ask request) (funext ih)

theorem andThen_andThen {γ : Type} (exchange : Exchange α) (next : α → Exchange β)
    (last : β → Exchange γ) :
    (exchange.andThen next).andThen last = exchange.andThen fun a => (next a).andThen last := by
  induction exchange with
  | done _ => rfl
  | ask request _ ih => exact congrArg (ask request) (funext ih)

instance : LawfulMonad Exchange :=
  LawfulMonad.mk' Exchange andThen_done (fun _ _ => rfl) andThen_andThen

theorem run_andThen (answer : σ → Request → Answer × σ) (exchange : Exchange α)
    (next : α → Exchange β) (transport : σ) :
    (exchange.andThen next).run answer transport =
      (next (exchange.run answer transport).1).run answer (exchange.run answer transport).2 := by
  induction exchange generalizing transport with
  | done _ => rfl
  | ask _ _ ih => exact ih _ _

end Exchange

abbrev Client (α : Type) := ExceptT Error Exchange α

namespace Client

def send (request : Request) (what : String) : Client Json := do
  match ← (Exchange.execute request : Exchange Answer) with
  | .ok response => response.check what
  | .error error => throw (.transport error)

def attempt {α : Type} (client : Client α) : Client (Except Error α) :=
  ExceptT.lift client.run

end Client

end DocGraph
