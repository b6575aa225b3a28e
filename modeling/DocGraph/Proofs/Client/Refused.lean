import DocGraph.Proofs.Assoc
import DocGraph.Proofs.Client.Collection
import DocGraph.Proofs.Entity.Edit
/-!
# Entities that a collection turns away

A call on an entity sends a single request, unless the collection refuses the entity: because it
has another schema, because its document is not in the state that the call is for, or because its
contents cannot be written.  A call that fails leaves the entity as it was in any case.
-/

namespace DocGraph

open Outcome

/-! ## Requests that were sent -/

def Exchange.sent {α σ : Type} (answer : σ → Request → Answer × σ) :
    Exchange α → σ → List Request
  | .done _, _ => []
  | .ask request resume, transport =>
    request :: (resume (answer transport request).1).sent answer (answer transport request).2
termination_by structural exchange => exchange

theorem Exchange.run_of_sent_eq_nil {α σ : Type} {answer : σ → Request → Answer × σ}
    {exchange : Exchange α} {transport : σ} (h : exchange.sent answer transport = []) :
    (exchange.run answer transport).2 = transport := by
  cases exchange with
  | done _ => rfl
  | ask request resume => simp [sent] at h

/-! ## Calls -/

inductive EntityCall where
  | create
  | update
  | refresh (moment : Moment)
  | delete
deriving DecidableEq

namespace EntityCall

def Result : EntityCall → Type
  | create | update => Identity
  | refresh _ | delete => Unit

def client [CustomCodecs] (collection : Collection) : (call : EntityCall) → EntityClient call.Result
  | create => collection.create
  | update => collection.update
  | refresh moment => collection.refresh moment
  | delete => collection.delete

end EntityCall

namespace Collection

open EntityClient

variable {collection : Collection} {entity : Entity}

theorem checkSchema_eq_ok_iff :
    collection.checkSchema entity = .ok () ↔ entity.schema.name = collection.name := by
  unfold checkSchema
  by_cases hname : entity.schema.name = collection.name
  · simp [hname]
  · simp [hname]

theorem checkSchema_eq_error_iff {error : Error} :
    collection.checkSchema entity = .error error ↔
      entity.schema.name ≠ collection.name ∧ error = .invalidSchema
        ("entity of " ++ entity.schema.name ++ " used with collection " ++ collection.name) := by
  unfold checkSchema
  by_cases hname : entity.schema.name = collection.name
  · simp [hname]
  · simp [hname, eq_comm]

theorem checkUnbound_eq_ok_iff :
    checkUnbound entity = .ok () ↔ entity.state = .unbound := by
  unfold checkUnbound
  cases entity.state <;> simp

theorem checkUnbound_eq_error_iff {error : Error} :
    checkUnbound entity = .error error ↔
      (entity.state = .deleted ∧ error = .entityDeleted entity.handle) ∨
        (entity.IsLive ∧ error = .alreadyExists entity.handle none) := by
  unfold checkUnbound Entity.IsLive
  cases entity.state <;> simp [eq_comm]

theorem persistedKey_eq_ok_iff {key : String} :
    persistedKey entity = .ok key ↔ entity.IsLive ∧ entity.identity.key = some key := by
  unfold persistedKey Entity.IsLive
  cases entity.state <;> cases entity.identity.key <;> simp

theorem persistedKey_eq_error_iff {error : Error} :
    persistedKey entity = .error error ↔
      (entity.state = .deleted ∧ error = .entityDeleted entity.handle) ∨
        (entity.state ≠ .deleted ∧ (entity.state = .unbound ∨ entity.identity.key = none) ∧
          error = .notPersisted entity.handle) := by
  unfold persistedKey
  cases entity.state <;> cases entity.identity.key <;> simp [eq_comm]

theorem usableKey_eq_ok_iff {key : String} :
    collection.usableKey entity = .ok key ↔
      entity.schema.name = collection.name ∧ entity.IsLive ∧ entity.identity.key = some key := by
  unfold usableKey
  rw [bind_eq_ok_iff]
  constructor
  · rintro ⟨_, hschema, hkey⟩
    exact ⟨checkSchema_eq_ok_iff.1 hschema, persistedKey_eq_ok_iff.1 hkey⟩
  · rintro ⟨hname, hkey⟩
    exact ⟨(), checkSchema_eq_ok_iff.2 hname, persistedKey_eq_ok_iff.2 hkey⟩

variable [CustomCodecs]

/-- The errors with which a collection turns an entity away before it asks anything. -/
inductive Refuses (collection : Collection) (entity : Entity) : EntityCall → Error → Prop where
  | foreign (call : EntityCall) (hname : entity.schema.name ≠ collection.name) :
      Refuses collection entity call (.invalidSchema
        ("entity of " ++ entity.schema.name ++ " used with collection " ++ collection.name))
  | deleted (call : EntityCall) (hname : entity.schema.name = collection.name)
      (hstate : entity.state = .deleted) :
      Refuses collection entity call (.entityDeleted entity.handle)
  | stored (hname : entity.schema.name = collection.name) (hstate : entity.IsLive) :
      Refuses collection entity .create (.alreadyExists entity.handle none)
  | unstored (call : EntityCall) (hcall : call ≠ .create)
      (hname : entity.schema.name = collection.name) (hstate : entity.state ≠ .deleted)
      (hkey : entity.state = .unbound ∨ entity.identity.key = none) :
      Refuses collection entity call (.notPersisted entity.handle)
  | unwritable (call : EntityCall) (hname : entity.schema.name = collection.name)
      (hstate : call = .create ∧ entity.state = .unbound ∨
        call = .update ∧ entity.IsLive ∧ entity.identity.key.isSome) {error : Error}
      (hdump : collection.schema.dump entity = .error error) :
      Refuses collection entity call error
  | keyless (hname : entity.schema.name = collection.name) (hstate : entity.state = .unbound)
      {members : Json.Members} (hdump : collection.schema.dump entity = .ok members)
      (hmissing : Assoc.get? "_key" members = none) {error : Error}
      (hkey : collection.schema.computeKey entity.record = .error error) :
      Refuses collection entity .create error

theorem createBody_eq_error_iff {error : Error} :
    collection.createBody entity = .error error ↔
      collection.schema.dump entity = .error error ∨
        ∃ members, collection.schema.dump entity = .ok members ∧
          Assoc.get? "_key" members = none ∧
          collection.schema.computeKey entity.record = .error error := by
  unfold createBody
  rw [bind_eq_error_iff]
  apply or_congr_right
  apply exists_congr
  intro members
  apply and_congr_right
  intro _
  dsimp only
  rw [Assoc.contains_erase_of_ne (by decide), Assoc.contains_erase_of_ne (by decide),
    Assoc.contains]
  cases hkey : Assoc.get? "_key" members with
  | some key => simp
  | none =>
      cases collection.schema.computeKey entity.record with
      | error reason => simp
      | ok key? => cases key? <;> simp

theorem planCreate_eq_error_iff {error : Error} :
    collection.planCreate entity = .error error ↔ collection.Refuses entity .create error := by
  unfold planCreate
  constructor
  · intro h
    rcases bind_eq_error_iff.1 h with hschema | ⟨_, hschema, h⟩
    · obtain ⟨hname, rfl⟩ := checkSchema_eq_error_iff.1 hschema
      exact .foreign _ hname
    have hname := checkSchema_eq_ok_iff.1 hschema
    rcases bind_eq_error_iff.1 h with hcheck | ⟨_, hcheck, h⟩
    · rcases checkUnbound_eq_error_iff.1 hcheck with ⟨hdeleted, rfl⟩ | ⟨hlive, rfl⟩
      · exact .deleted _ hname hdeleted
      · exact .stored hname hlive
    have hunbound := checkUnbound_eq_ok_iff.1 hcheck
    rcases bind_eq_error_iff.1 h with hbody | ⟨_, _, h⟩
    · rcases createBody_eq_error_iff.1 hbody with hdump | ⟨members, hdump, hmissing, hkey⟩
      · exact .unwritable _ hname (.inl ⟨rfl, hunbound⟩) hdump
      · exact .keyless hname hunbound hdump hmissing hkey
    · simp at h
  · intro h
    cases h with
    | foreign _ hname => rw [checkSchema_eq_error_iff.2 ⟨hname, rfl⟩, error_bind]
    | deleted _ hname hstate =>
        rw [checkSchema_eq_ok_iff.2 hname, ok_bind,
          checkUnbound_eq_error_iff.2 (.inl ⟨hstate, rfl⟩), error_bind]
    | stored hname hstate =>
        rw [checkSchema_eq_ok_iff.2 hname, ok_bind,
          checkUnbound_eq_error_iff.2 (.inr ⟨hstate, rfl⟩), error_bind]
    | unstored _ hcall => exact absurd rfl hcall
    | unwritable _ hname hstate hdump =>
        rcases hstate with ⟨_, hunbound⟩ | ⟨hcall, _⟩
        · rw [checkSchema_eq_ok_iff.2 hname, ok_bind, checkUnbound_eq_ok_iff.2 hunbound, ok_bind,
            createBody_eq_error_iff.2 (.inl hdump), error_bind]
        · simp at hcall
    | keyless hname hstate hdump hmissing hkey =>
        rw [checkSchema_eq_ok_iff.2 hname, ok_bind, checkUnbound_eq_ok_iff.2 hstate, ok_bind,
          createBody_eq_error_iff.2 (.inr ⟨_, hdump, hmissing, hkey⟩), error_bind]

theorem admits_of_planCreate {plan : String × Request}
    (h : collection.planCreate entity = .ok plan) :
    entity.schema.name = collection.name ∧ entity.state = .unbound := by
  obtain ⟨_, hschema, h⟩ := bind_eq_ok_iff.1 h
  obtain ⟨_, hunbound, _⟩ := bind_eq_ok_iff.1 h
  exact ⟨checkSchema_eq_ok_iff.1 hschema, checkUnbound_eq_ok_iff.1 hunbound⟩

/-- Every call but the creation needs the key of a stored document. -/
theorem refuses_of_usableKey {call : EntityCall} (hcall : call ≠ .create) {error : Error}
    (h : collection.usableKey entity = .error error) : collection.Refuses entity call error := by
  rcases bind_eq_error_iff.1 h with hschema | ⟨_, hschema, h⟩
  · obtain ⟨hname, rfl⟩ := checkSchema_eq_error_iff.1 hschema
    exact .foreign call hname
  have hname := checkSchema_eq_ok_iff.1 hschema
  rcases persistedKey_eq_error_iff.1 h with ⟨hdeleted, rfl⟩ | ⟨halive, hkey, rfl⟩
  · exact .deleted call hname hdeleted
  · exact .unstored call hcall hname halive hkey

/-- Beside the key, only an update needs something else: contents that can be written. -/
theorem Refuses.usableKey {call : EntityCall} {error : Error}
    (h : collection.Refuses entity call error) (hcall : call ≠ .create) :
    collection.usableKey entity = .error error ∨
      (call = .update ∧ (∃ key, collection.usableKey entity = .ok key) ∧
        collection.schema.dump entity = .error error) := by
  unfold Collection.usableKey
  cases h with
  | foreign _ hname =>
      rw [checkSchema_eq_error_iff.2 ⟨hname, rfl⟩]
      exact .inl rfl
  | deleted _ hname hstate =>
      rw [checkSchema_eq_ok_iff.2 hname, ok_bind, persistedKey_eq_error_iff.2 (.inl ⟨hstate, rfl⟩)]
      exact .inl rfl
  | stored => exact absurd rfl hcall
  | unstored _ _ hname halive hkey =>
      rw [checkSchema_eq_ok_iff.2 hname, ok_bind,
        persistedKey_eq_error_iff.2 (.inr ⟨halive, hkey, rfl⟩)]
      exact .inl rfl
  | unwritable _ hname hstate hdump =>
      rcases hstate with ⟨hcreate, _⟩ | ⟨hupdate, hlive, hkey⟩
      · exact absurd hcreate hcall
      · obtain ⟨key, hkey⟩ := Option.isSome_iff_exists.1 hkey
        rw [checkSchema_eq_ok_iff.2 hname, ok_bind, persistedKey_eq_ok_iff.2 ⟨hlive, hkey⟩]
        exact .inr ⟨hupdate, ⟨key, rfl⟩, hdump⟩
  | keyless => exact absurd rfl hcall

theorem planUpdate_eq_usableKey : collection.planUpdate entity = do
    let key ← collection.usableKey entity
    let members ← collection.schema.dump entity
    return (key, members) := by
  unfold planUpdate usableKey
  rw [bind_assoc]

theorem usableKey_of_planUpdate {plan : String × Json.Members}
    (h : collection.planUpdate entity = .ok plan) : collection.usableKey entity = .ok plan.1 := by
  rw [planUpdate_eq_usableKey] at h
  obtain ⟨key, hkey, h⟩ := bind_eq_ok_iff.1 h
  obtain ⟨members, _, h⟩ := bind_eq_ok_iff.1 h
  obtain rfl := Except.ok.inj h
  exact hkey

theorem planUpdate_eq_error_iff {error : Error} :
    collection.planUpdate entity = .error error ↔ collection.Refuses entity .update error := by
  rw [planUpdate_eq_usableKey, bind_eq_error_iff]
  constructor
  · rintro (h | ⟨key, hkey, h⟩)
    · exact refuses_of_usableKey (by simp) h
    · obtain ⟨hname, hlive, hkey⟩ := usableKey_eq_ok_iff.1 hkey
      rcases bind_eq_error_iff.1 h with hdump | ⟨_, _, h⟩
      · exact .unwritable _ hname (.inr ⟨rfl, hlive, by simp [hkey]⟩) hdump
      · simp at h
  · intro h
    rcases h.usableKey (by simp) with h | ⟨_, ⟨key, hkey⟩, hdump⟩
    · exact .inl h
    · exact .inr ⟨key, hkey, by rw [hdump, error_bind]⟩

theorem usableKey_eq_error_iff {call : EntityCall} {error : Error}
    (hcall : (∃ moment, call = .refresh moment) ∨ call = .delete) :
    collection.usableKey entity = .error error ↔ collection.Refuses entity call error := by
  have hcreate : call ≠ .create := by rcases hcall with ⟨_, rfl⟩ | rfl <;> simp
  have hupdate : call ≠ .update := by rcases hcall with ⟨_, rfl⟩ | rfl <;> simp
  constructor
  · exact refuses_of_usableKey hcreate
  · intro h
    rcases h.usableKey hcreate with h | ⟨hcall, _⟩
    · exact h
    · exact absurd hcall hupdate

end Collection

/-! ## Calls that fail -/

section AskOnce

variable {α β γ σ : Type} {client : EntityClient α} {entity : Entity} {plan : Except Error β}
  {request : β → Request} {reply : β → Answer → Except Error γ} {take : γ → α × Entity}
  {answer : σ → Request → Answer × σ} {transport : σ} {error : Error}

theorem EntityClient.unchanged_of_askOnce
    (habout : client.about entity = askOnce entity plan request reply take)
    (herror : ((client.about entity).run answer transport).1.1 = .error error) :
    ((client.about entity).run answer transport).1.2 = entity := by
  rcases hrun : (client.about entity).run answer transport with ⟨⟨result, after⟩, next⟩
  rw [hrun] at herror
  rw [habout] at hrun
  exact (run_askOnce_cases hrun).2 error herror

/-- A failure comes without a request exactly when it comes from the plan. -/
theorem EntityClient.refused_of_askOnce
    (habout : client.about entity = askOnce entity plan request reply take) :
    (((client.about entity).run answer transport).1.1 = .error error ∧
      (client.about entity).sent answer transport = []) ↔ plan = .error error := by
  rw [habout]
  cases plan with
  | ok b =>
      have hsent : (askOnce entity (.ok b) request reply take).sent answer transport =
          [request b] := rfl
      simp [hsent]
  | error reason =>
      have hsent : (askOnce entity (.error reason) request reply take).sent answer transport =
          [] := rfl
      simp [run_askOnce_of_error rfl, hsent]

end AskOnce

namespace EntityCall

variable [CustomCodecs] {σ : Type} {answer : σ → Request → Answer × σ} {transport : σ}
  {collection : Collection} {entity : Entity} {error : Error}

theorem unchanged_of_error (call : EntityCall)
    (h : (((call.client collection).about entity).run answer transport).1.1 = .error error) :
    (((call.client collection).about entity).run answer transport).1.2 = entity := by
  cases call with
  | create => exact EntityClient.unchanged_of_askOnce (collection.about_create entity) h
  | update => exact EntityClient.unchanged_of_askOnce (collection.about_update entity) h
  | refresh moment =>
      exact EntityClient.unchanged_of_askOnce (collection.about_refresh moment entity) h
  | delete => exact EntityClient.unchanged_of_askOnce (collection.about_delete entity) h

theorem refuses_iff (call : EntityCall) :
    collection.Refuses entity call error ↔
      (((call.client collection).about entity).run answer transport).1.1 = .error error ∧
        ((call.client collection).about entity).sent answer transport = [] := by
  apply Iff.symm
  cases call with
  | create =>
      rw [← Collection.planCreate_eq_error_iff]
      exact EntityClient.refused_of_askOnce (collection.about_create entity)
  | update =>
      rw [← Collection.planUpdate_eq_error_iff]
      exact EntityClient.refused_of_askOnce (collection.about_update entity)
  | refresh moment =>
      rw [← Collection.usableKey_eq_error_iff (.inl ⟨moment, rfl⟩)]
      exact EntityClient.refused_of_askOnce (collection.about_refresh moment entity)
  | delete =>
      rw [← Collection.usableKey_eq_error_iff (.inr rfl)]
      exact EntityClient.refused_of_askOnce (collection.about_delete entity)

end EntityCall

/-- A call that is refused comes to nothing, at the transport as well as at the entity. -/
theorem Collection.Refuses.run_eq [CustomCodecs] {σ : Type} {collection : Collection}
    {entity : Entity} {call : EntityCall} {error : Error} (h : collection.Refuses entity call error)
    (answer : σ → Request → Answer × σ) (transport : σ) :
    ((call.client collection).about entity).run answer transport =
      ((.error error, entity), transport) := by
  obtain ⟨herror, hsent⟩ := call.refuses_iff.1 h
  have hentity := call.unchanged_of_error herror
  have htransport := Exchange.run_of_sent_eq_nil hsent
  exact Prod.ext (Prod.ext herror hentity) htransport

end DocGraph
