import DocGraph.Client.Collection
import DocGraph.Proofs.Outcome
/-!
# What the operations of a collection ask

Every operation on an entity asks at most one request.  It either fails before, without asking
anything, or it asks its request and ends with what the answer means.
-/

namespace DocGraph

open Outcome

/-! ## Conversations about an entity -/

namespace EntityClient

variable {α β : Type}

/-- The conversation that an operation holds about an entity. -/
def about (client : EntityClient α) (entity : Entity) : Exchange (Except Error α × Entity) :=
  client.run.run entity

theorem about_bind (client : EntityClient α) (next : α → EntityClient β) (entity : Entity) :
    (client >>= next).about entity = (client.about entity).andThen fun
      | (.ok a, entity) => (next a).about entity
      | (.error error, entity) => .done (.error error, entity) := by
  show Exchange.andThen _ _ = Exchange.andThen _ _
  congr 1
  funext ⟨result, entity⟩
  cases result <;> rfl

theorem about_pure (a : α) (entity : Entity) :
    (pure a : EntityClient α).about entity = .done (.ok a, entity) := rfl

theorem about_lift (result : Except Error α) (entity : Entity) :
    (liftM result : EntityClient α).about entity = .done (result, entity) := rfl

theorem about_get_bind (next : Entity → EntityClient α) (entity : Entity) :
    (getThe Entity >>= next).about entity = (next entity).about entity := rfl

theorem about_lift_bind (result : Except Error α) (next : α → EntityClient β)
    (entity : Entity) :
    (liftM result >>= next).about entity =
      match result with
      | .ok a => (next a).about entity
      | .error error => .done (.error error, entity) := by
  cases result <;> rfl

theorem about_set (next entity : Entity) :
    (set next : EntityClient PUnit).about entity = .done (.ok ⟨⟩, next) := rfl

theorem about_aside (client : Client α) (entity : Entity) :
    client.aside.about entity = client.run.andThen fun result => .done (result, entity) := rfl

end EntityClient

def Client.received (what : String) : Answer → Except Error Json
  | .ok response => response.check what
  | .error error => .error (.transport error)

theorem Client.run_send (request : Request) (what : String) :
    (Client.send request what).run =
      .ask request fun answer => .done (Client.received what answer) := by
  show Exchange.ask request _ = _
  congr 1
  funext answer
  cases answer <;> rfl

/-! ## Operations that ask one request -/

section AskOnce

variable {α β γ σ : Type}

def conclude (entity : Entity) (take : γ → α × Entity) :
    Except Error γ → Except Error α × Entity
  | .ok c => (.ok (take c).1, (take c).2)
  | .error error => (.error error, entity)

/-- A plan is made, a request is asked by it, and the entity takes what the answer brings. -/
def askOnce (entity : Entity) (plan : Except Error β) (request : β → Request)
    (reply : β → Answer → Except Error γ) (take : γ → α × Entity) :
    Exchange (Except Error α × Entity) :=
  match plan with
  | .ok b => .ask (request b) fun answer => .done (conclude entity take (reply b answer))
  | .error error => .done (.error error, entity)

variable {entity after : Entity} {plan : Except Error β} {request : β → Request}
  {reply : β → Answer → Except Error γ} {take : γ → α × Entity}
  {answer : σ → Request → Answer × σ} {host next : σ}

theorem run_askOnce_of_ok {b : β} (h : plan = .ok b) :
    (askOnce entity plan request reply take).run answer host =
      (conclude entity take (reply b (answer host (request b)).1),
        (answer host (request b)).2) := by
  subst h
  rfl

theorem run_askOnce_of_error {error : Error} (h : plan = .error error) :
    (askOnce entity plan request reply take).run answer host = ((.error error, entity), host) := by
  subst h
  rfl

theorem run_askOnce_eq_ok {a : α}
    (h : (askOnce entity plan request reply take).run answer host = ((.ok a, after), next)) :
    ∃ b c, plan = .ok b ∧ reply b (answer host (request b)).1 = .ok c ∧
      after = (take c).2 ∧ next = (answer host (request b)).2 := by
  cases hplan : plan with
  | error error =>
      rw [run_askOnce_of_error hplan] at h
      simp at h
  | ok b =>
      rw [run_askOnce_of_ok hplan] at h
      obtain ⟨hresult, hnext⟩ := Prod.mk.inj h
      cases hreply : reply b (answer host (request b)).1 with
      | error error => simp [hreply, conclude] at hresult
      | ok c =>
          rw [hreply] at hresult
          exact ⟨b, c, rfl, hreply, (Prod.mk.inj hresult).2.symm, hnext.symm⟩

/-- At most one request is asked, and a failure leaves the entity alone. -/
theorem run_askOnce_cases {result : Except Error α}
    (h : (askOnce entity plan request reply take).run answer host = ((result, after), next)) :
    (next = host ∨ ∃ asked, next = (answer host asked).2) ∧
      ∀ error, result = .error error → after = entity := by
  cases hplan : plan with
  | error error =>
      rw [run_askOnce_of_error hplan] at h
      obtain ⟨hresult, hnext⟩ := Prod.mk.inj h
      exact ⟨Or.inl hnext.symm, fun _ _ => (Prod.mk.inj hresult).2.symm⟩
  | ok b =>
      rw [run_askOnce_of_ok hplan] at h
      obtain ⟨hresult, hnext⟩ := Prod.mk.inj h
      refine ⟨Or.inr ⟨request b, hnext.symm⟩, fun error herror => ?_⟩
      cases hreply : reply b (answer host (request b)).1 with
      | error error =>
          rw [hreply] at hresult
          exact (Prod.mk.inj hresult).2.symm
      | ok c =>
          rw [hreply, herror] at hresult
          simp [conclude] at hresult

end AskOnce

namespace Collection

open EntityClient

/-! ## Writing -/

def identityFrom (what : String) (answer : Answer) : Except Error Identity := do
  identityOf (← Client.received what answer)

def adopt (entity : Entity) (identity : Identity) : Identity × Entity :=
  (identity, entity.markPersisted identity)

theorem about_write (request : Request) (what : String) (entity : Entity) :
    EntityClient.about (do
      let identity ← (identityOf (← (Client.send request what).aside) : EntityClient Identity)
      set (entity.markPersisted identity)
      return identity) entity =
      .ask request fun answer =>
        .done (conclude entity (adopt entity) (identityFrom what answer)) := by
  rw [about_bind, about_aside, Client.run_send]
  refine congrArg (Exchange.ask _) (funext fun answer => ?_)
  simp only [identityFrom, Exchange.andThen, about_bind, about_lift, about_set, about_pure]
  cases Client.received what answer with
  | error error => rfl
  | ok body =>
      dsimp only [ok_bind]
      cases identityOf body <;> rfl

variable [CustomCodecs]

def planCreate (collection : Collection) (entity : Entity) :
    Except Error (String × Request) := do
  collection.checkSchema entity
  checkUnbound entity
  let body ← collection.createBody entity
  let what := match (Assoc.get? "_key" body).bind Json.asString? with
    | some key => collection.handle key
    | none => entity.handle
  return (what, ⟨.post, collection.documentPath none, [], some (.object body)⟩)

theorem about_create (collection : Collection) (entity : Entity) :
    collection.create.about entity =
      askOnce entity (collection.planCreate entity) Prod.snd
        (fun plan => identityFrom plan.1) (adopt entity) := by
  unfold create planCreate
  rw [about_get_bind, about_lift_bind]
  cases collection.checkSchema entity with
  | error error => rfl
  | ok _ =>
      dsimp only [ok_bind]
      rw [about_lift_bind]
      cases checkUnbound entity with
      | error error => rfl
      | ok _ =>
          dsimp only [ok_bind]
          rw [about_lift_bind]
          cases collection.createBody entity with
          | error error => rfl
          | ok body => exact about_write _ _ entity

def updateRequest (collection : Collection) (key : String) (members : Json.Members) : Request :=
  ⟨.put, collection.documentPath (some key), [("ignoreRevs", "false")],
    some (.object (Assoc.erase "_id" members))⟩

def planUpdate (collection : Collection) (entity : Entity) :
    Except Error (String × Json.Members) := do
  collection.checkSchema entity
  let key ← persistedKey entity
  let members ← collection.schema.dump entity
  return (key, members)

theorem about_update (collection : Collection) (entity : Entity) :
    collection.update.about entity =
      askOnce entity (collection.planUpdate entity)
        (fun plan => collection.updateRequest plan.1 plan.2)
        (fun plan => identityFrom (collection.handle plan.1)) (adopt entity) := by
  unfold update planUpdate
  rw [about_get_bind, about_lift_bind]
  cases collection.checkSchema entity with
  | error error => rfl
  | ok _ =>
      dsimp only [ok_bind]
      rw [about_lift_bind]
      cases persistedKey entity with
      | error error => rfl
      | ok key =>
          dsimp only [ok_bind]
          rw [about_lift_bind]
          cases collection.schema.dump entity with
          | error error => rfl
          | ok members => exact about_write _ _ entity

/-! ## Reading and removing -/

def entityFrom (collection : Collection) (key : String) (answer : Answer) :
    Except Error (Drawn Entity) := do
  collection.schema.load (← rowMembers (← Client.received (collection.handle key) answer))

def readRequest (collection : Collection) (key : String) : Request :=
  .plain .get (collection.documentPath (some key))

theorem run_get (collection : Collection) (key : String) :
    (collection.get key).run =
      .ask (collection.readRequest key) fun answer => .done (collection.entityFrom key answer) := by
  show (ExceptT.run (Client.send _ _ >>= _)) = _
  rw [ExceptT.run_bind, Client.run_send]
  refine congrArg (Exchange.ask _) (funext fun answer => ?_)
  unfold entityFrom
  dsimp only [Exchange.andThen]
  cases Client.received (collection.handle key) answer with
  | error error => rfl
  | ok body =>
      dsimp only [ok_bind]
      cases rowMembers body <;> rfl

def usableKey (collection : Collection) (entity : Entity) : Except Error String := do
  collection.checkSchema entity
  persistedKey entity

theorem about_refresh (collection : Collection) (moment : Moment) (entity : Entity) :
    (collection.refresh moment).about entity =
      askOnce entity (collection.usableKey entity) collection.readRequest collection.entityFrom
        (fun fresh => ((), { fresh moment with state := .persisted })) := by
  unfold refresh usableKey
  rw [about_get_bind, about_lift_bind]
  cases collection.checkSchema entity with
  | error error => rfl
  | ok _ =>
      dsimp only [ok_bind]
      rw [about_lift_bind]
      cases persistedKey entity with
      | error error => rfl
      | ok key =>
          dsimp only
          rw [about_bind, about_aside, run_get]
          refine congrArg (Exchange.ask _) (funext fun answer => ?_)
          dsimp only [Exchange.andThen]
          cases collection.entityFrom key answer <;> rfl

omit [CustomCodecs] in
theorem about_delete (collection : Collection) (entity : Entity) :
    collection.delete.about entity =
      askOnce entity (collection.usableKey entity)
        (fun key => .plain .delete (collection.documentPath (some key)))
        (fun key => Client.received (collection.handle key))
        (fun _ => ((), entity.markDeleted)) := by
  unfold delete usableKey
  rw [about_get_bind, about_lift_bind]
  cases collection.checkSchema entity with
  | error error => rfl
  | ok _ =>
      dsimp only [ok_bind]
      rw [about_lift_bind]
      cases persistedKey entity with
      | error error => rfl
      | ok key =>
          dsimp only
          rw [about_bind, about_aside, Client.run_send]
          refine congrArg (Exchange.ask _) (funext fun answer => ?_)
          dsimp only [Exchange.andThen]
          cases Client.received (collection.handle key) answer <;> rfl

end Collection

end DocGraph
