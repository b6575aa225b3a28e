import DocGraph.Proofs.Client.Collection
/-!
# Conversations of several requests

What a client asks next depends on what it was answered before, and each part of a conversation
starts from the transport that the part before it leaves behind.
-/

namespace DocGraph

variable {α β σ : Type} {answer : σ → Request → Answer × σ} {transport after : σ}

theorem Exchange.run_ask {request : Request} {resume : Answer → Exchange α} {reply : Answer}
    (h : answer transport request = (reply, after)) :
    (ask request resume).run answer transport = (resume reply).run answer after := by
  rw [Exchange.run, h]

namespace Client

theorem run_send_bind (request : Request) (what : String) (next : Json → Client α) :
    (send request what >>= next).run =
      .ask request fun answer =>
        match received what answer with
        | .ok body => (next body).run
        | .error error => .done (.error error) := by
  rw [ExceptT.run_bind, run_send]
  refine congrArg (Exchange.ask _) (funext fun answer => ?_)
  show Exchange.andThen (.done (received what answer)) _ = _
  cases received what answer <;> rfl

theorem run_bind_of_ok {first : Client α} {next : α → Client β} {a : α}
    (h : first.run.run answer transport = (.ok a, after)) :
    (first >>= next).run.run answer transport = (next a).run.run answer after := by
  rw [ExceptT.run_bind]
  show Exchange.run answer (Exchange.andThen _ _) transport = _
  rw [Exchange.run_andThen, h]

theorem run_bind_of_error {first : Client α} {next : α → Client β} {error : Error}
    (h : first.run.run answer transport = (.error error, after)) :
    (first >>= next).run.run answer transport = (.error error, after) := by
  rw [ExceptT.run_bind]
  show Exchange.run answer (Exchange.andThen _ _) transport = _
  rw [Exchange.run_andThen, h]
  rfl

theorem run_lift_ok (a : α) (transport : σ) :
    (liftM (.ok a : Except Error α) : Client α).run.run answer transport = (.ok a, transport) := rfl

theorem run_lift {exchange : Exchange α} {a : α}
    (h : exchange.run answer transport = (a, after)) :
    (liftM exchange : Client α).run.run answer transport = (.ok a, after) := by
  show Exchange.run answer (Exchange.andThen exchange _) transport = _
  rw [Exchange.run_andThen, h]
  rfl

theorem mapM_lift_ok (items : List α) :
    ((items.map Except.ok).mapM fun item => (liftM (item : Except Error α) : Client α)) =
      pure items := by
  induction items with
  | nil => rfl
  | cons item items ih =>
      rw [List.map_cons, List.mapM_cons, ih]
      rfl

end Client

end DocGraph
