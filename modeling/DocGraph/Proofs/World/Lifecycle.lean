import DocGraph.Proofs.World.Calls
import DocGraph.Proofs.World.Operations
/-!
# The life of an entity

An entity is made, stored, changed, written and read again, and removed at last, while other
clients ask the same server what they like.  Once its document is stored the entity keeps the key
for good; once it is deleted nothing can be done with it.
-/

namespace DocGraph

open Outcome StoredDatabase

variable {draw : Nat → String}

/-! ## Documents lie where they say -/

def Server.Identifies (server : Server) : Prop :=
  ∀ place document, server.documentAt? place = some document →
    ∃ rev, Identified document (documentHandle place.collection place.key) place.key rev

theorem Server.identifies_new (databases : List String) : (Server.new databases).Identifies := by
  intro place document hdocument
  rw [Host.documentAt?_new] at hdocument
  simp at hdocument

theorem Host.identifies_answerFrom {host : Host} (h : host.server.Identifies)
    (request : Request) : (host.answerFrom draw request).2.server.Identifies := by
  intro place document hdocument
  rcases Host.answerFrom_cases draw host request with ⟨_, hkeeps⟩ | ⟨_, filed, body, hfiles⟩
  · exact h place document (hkeeps place document hdocument)
  · rw [hfiles place] at hdocument
    split at hdocument
    · rename_i hplace
      obtain rfl := Option.some.inj hdocument
      rw [hplace]
      exact ⟨_, identified_withIdentity body _ _ _⟩
    · exact h place document hdocument

theorem Host.identifies_run {α : Type} {host : Host} (h : host.server.Identifies)
    (exchange : Exchange α) :
    (exchange.run (Host.answerFrom draw) host).2.server.Identifies := by
  induction exchange generalizing host with
  | done _ => exact h
  | ask request resume ih => exact ih _ (identifies_answerFrom h request)

/-! ## Calls that succeed -/

namespace Entity

structure IsNamed (entity : Entity) (name key : String) : Prop where
  name_eq : entity.schema.name = name
  key_eq : entity.identity.key = some key
  id_eq : entity.identity.id = some (documentHandle name key)

structure IsBound (entity : Entity) (name key : String) : Prop extends
    entity.IsNamed name key where
  stored : entity.state ≠ .unbound

end Entity

theorem Collection.Writes.isBound [CustomCodecs] {collection : Collection}
    {entity after : Entity} {before afterwards : Server}
    (h : collection.Writes entity after before afterwards)
    (hname : entity.schema.name = collection.name) :
    after.state = .persisted ∧ ∃ key, after.IsBound collection.name key := by
  obtain ⟨_, _, key, _, _, _, _, rfl⟩ := h
  exact ⟨rfl, key, ⟨hname, rfl, rfl⟩, by simp [Entity.markPersisted]⟩

namespace Store

variable {store : Store} {host next : Host} {entity after : Entity}

/-- What a call makes of an entity when it succeeds: the state it asks for and leaves behind, and
the document that the entity belongs to afterwards. -/
inductive Concludes (store : Store) (entity after : Entity) : EntityCall → Prop where
  | created (hstate : entity.state = .unbound) (hafter : after.state = .persisted) (key : String)
      (hbound : after.IsBound store.collection.name key) : Concludes store entity after .create
  | renewed (call : EntityCall) (hcall : call = .update ∨ ∃ moment, call = .refresh moment)
      (hstate : entity.IsLive) (hafter : after.state = .persisted) (key : String)
      (hkey : entity.identity.key = some key) (hbound : after.IsBound store.collection.name key) :
      Concludes store entity after call
  | deleted (hstate : entity.IsLive) (hafter : after = entity.markDeleted) :
      Concludes store entity after .delete

theorem concludes_delete
    (h : (store.collection.delete.about entity).run (Host.answerFrom draw) host =
      ((.ok (), after), next)) :
    entity.schema.name = store.collection.name ∧ store.Concludes entity after .delete := by
  rw [Collection.about_delete] at h
  obtain ⟨key, _, husable, _, hafter, _⟩ := run_askOnce_eq_ok h
  obtain ⟨hname, hlive, _⟩ := Collection.usableKey_eq_ok_iff.1 husable
  exact ⟨hname, .deleted hlive hafter⟩

variable [CustomCodecs]

theorem isBound_of_load (hidentifies : host.server.Identifies) {key : String}
    {document : Json.Members}
    (hdocument : host.server.documentAt? (store.place key) = some document)
    {fresh : Drawn Entity} (hload : store.collection.schema.load document = .ok fresh)
    (moment : Moment) : (fresh moment).IsBound store.collection.name key := by
  obtain ⟨rev, hidentified⟩ := hidentifies _ _ hdocument
  have hidentity := Schema.identity_of_load hload hidentified moment
  obtain ⟨record, identity, hrecord, _, _, _, hsame, hidentity', hstate, _⟩ :=
    Schema.load_cases hload moment
  have hschema : (fresh moment).schema = store.collection.schema := by
    unfold Entity.schema
    rw [hsame, Schema.schema_of_loadRecord hrecord]
  have hpersisted : (fresh moment).state = .persisted := by
    rw [hstate, ← hidentity', hidentity]
    rfl
  exact ⟨⟨congrArg Schema.name hschema, congrArg Identity.key hidentity,
    congrArg Identity.id hidentity⟩, by simp [hpersisted]⟩

theorem concludes_create {identity : Identity}
    (h : (store.collection.create.about entity).run (Host.answerFrom draw) host =
      ((.ok identity, after), next)) :
    entity.schema.name = store.collection.name ∧ store.Concludes entity after .create := by
  have hwrites := Collection.writes_of_create h
  rw [Collection.about_create] at h
  obtain ⟨plan, _, hplan, _⟩ := run_askOnce_eq_ok h
  obtain ⟨hname, hunbound⟩ := Collection.admits_of_planCreate hplan
  obtain ⟨hafter, key, hbound⟩ := hwrites.isBound hname
  exact ⟨hname, .created hunbound hafter key hbound⟩

theorem concludes_update {identity : Identity}
    (h : (store.collection.update.about entity).run (Host.answerFrom draw) host =
      ((.ok identity, after), next)) :
    entity.schema.name = store.collection.name ∧ store.Concludes entity after .update := by
  obtain ⟨hwrites, key, husable, hkept⟩ := Collection.writes_of_update h
  obtain ⟨hname, hlive, hkey⟩ := Collection.usableKey_eq_ok_iff.1 husable
  obtain ⟨hafter, key', hbound⟩ := hwrites.isBound hname
  obtain rfl : key' = key := Option.some.inj (hbound.key_eq.symm.trans hkept)
  exact ⟨hname, .renewed .update (.inl rfl) hlive hafter key' hkey hbound⟩

theorem concludes_refresh (hidentifies : next.server.Identifies) {moment : Moment}
    (h : ((store.collection.refresh moment).about entity).run (Host.answerFrom draw) host =
      ((.ok (), after), next)) :
    entity.schema.name = store.collection.name ∧
      store.Concludes entity after (.refresh moment) := by
  obtain ⟨key, document, fresh, husable, hdocument, hload, rfl⟩ := refresh_eq_ok h
  obtain ⟨hname, hlive, hkey⟩ := Collection.usableKey_eq_ok_iff.1 husable
  have hfresh := isBound_of_load hidentifies hdocument hload moment
  exact ⟨hname, .renewed _ (.inr ⟨moment, rfl⟩) hlive rfl key hkey
    ⟨⟨hfresh.name_eq, hfresh.key_eq, hfresh.id_eq⟩, by simp⟩⟩

theorem concludes_of_ok {call : EntityCall} {result : call.Result}
    (hidentifies : next.server.Identifies)
    (h : ((call.client store.collection).about entity).run (Host.answerFrom draw) host =
      ((.ok result, after), next)) :
    entity.schema.name = store.collection.name ∧ store.Concludes entity after call := by
  cases call with
  | create => exact concludes_create h
  | update => exact concludes_update h
  | refresh moment => exact concludes_refresh hidentifies h
  | delete => exact concludes_delete h

end Store

/-! ## Entities that are deleted -/

namespace Entity

variable {entity : Entity}

theorem ensureLive_of_deleted (h : entity.state = .deleted) :
    entity.ensureLive = .error (.entityDeleted entity.handle) := if_pos h

theorem perform_of_deleted (h : entity.state = .deleted) (mutation : Mutation) :
    ∃ error, mutation.perform entity = (.error error, entity) := by
  have hends := mutation.ends_perform entity
  generalize mutation.perform entity = outcome at hends
  cases hends with
  | failed error => exact ⟨error, rfl⟩
  | changed _ hchanged => exact absurd h hchanged.alive

variable [CustomCodecs]

/-- Nothing can be done with the entity: none of its fields can be read, and every change and every
call fails. -/
structure IsUnusable (entity : Entity) : Prop where
  liveRecord : entity.liveRecord = .error (.entityDeleted entity.handle)
  get? : ∀ name, entity.get? name = .error (.entityDeleted entity.handle)
  contains : ∀ name, entity.contains name = .error (.entityDeleted entity.handle)
  dump : ∀ schema : Schema, schema.dump entity = .error (.entityDeleted entity.handle)
  perform : ∀ mutation : Mutation, ∃ error, mutation.perform entity = (.error error, entity)
  call : ∀ {σ : Type} (answer : σ → Request → Answer × σ) (transport : σ) (call : EntityCall)
    (collection : Collection),
    ∃ error, ((call.client collection).about entity).run answer transport =
      ((.error error, entity), transport)
  connections : ∀ (collection : Collection) (direction : Direction),
    ∃ error, collection.connections entity direction = .error error

theorem run_call_of_deleted (h : entity.state = .deleted) {σ : Type}
    (answer : σ → Request → Answer × σ) (transport : σ) (call : EntityCall)
    (collection : Collection) :
    ∃ error, ((call.client collection).about entity).run answer transport =
      ((.error error, entity), transport) := by
  have hrefused : ∃ error, collection.Refuses entity call error := by
    by_cases hname : entity.schema.name = collection.name
    · exact ⟨_, .deleted call hname h⟩
    · exact ⟨_, .foreign call hname⟩
  obtain ⟨error, hrefused⟩ := hrefused
  exact ⟨error, hrefused.run_eq answer transport⟩

theorem connections_of_deleted (h : entity.state = .deleted) (collection : Collection)
    (direction : Direction) : ∃ error, collection.connections entity direction = .error error := by
  have hvertex : Collection.vertexId entity = .error (.entityDeleted entity.handle) := by
    unfold Collection.vertexId
    rw [h]
  unfold Collection.connections
  rw [hvertex]
  cases collection.schema.isEdge with
  | true => exact ⟨_, rfl⟩
  | false => exact ⟨_, rfl⟩

theorem isUnusable_of_deleted (h : entity.state = .deleted) : entity.IsUnusable where
  liveRecord := by rw [Entity.liveRecord, ensureLive_of_deleted h, error_bind]
  get? name := by rw [Entity.get?, ensureLive_of_deleted h, error_bind]
  contains name := by rw [Entity.contains, ensureLive_of_deleted h, error_bind]
  dump schema := by
    rw [Schema.dump, Entity.liveRecord, ensureLive_of_deleted h, error_bind, error_bind]
  perform := perform_of_deleted h
  call := run_call_of_deleted h
  connections := connections_of_deleted h

end Entity

/-! ## Lives -/

structure Life where
  host : Host
  entity : Entity

namespace Life

inductive Event where
  | mutate (mutation : Mutation)
  | call (call : EntityCall) (store : Store)
  | request (request : Request)
  | script (rows : List Json) (fullCount : Option UInt64)
  | fail (failure : TransportError)

def Event.isElsewhere : Event → Bool
  | mutate _ | call .. => false
  | request _ | script .. | fail _ => true

/-- The moves of the state that an event which succeeds can make. -/
inductive Event.Moves : Event → EntityState → EntityState → Prop where
  | create (store : Store) : Moves (.call .create store) .unbound .persisted
  | update (store : Store) {state : EntityState} (h : state = .persisted ∨ state = .stale) :
      Moves (.call .update store) state .persisted
  | refresh (store : Store) (moment : Moment) {state : EntityState}
      (h : state = .persisted ∨ state = .stale) :
      Moves (.call (.refresh moment) store) state .persisted
  | delete (store : Store) {state : EntityState} (h : state = .persisted ∨ state = .stale) :
      Moves (.call .delete store) state .deleted
  | change (mutation : Mutation) : Moves (.mutate mutation) .persisted .stale
  | changeAgain (mutation : Mutation) {state : EntityState}
      (h : state = .unbound ∨ state = .stale) : Moves (.mutate mutation) state state
  | elsewhere {event : Event} (h : event.isElsewhere = true) (state : EntityState) :
      Moves event state state

variable (draw : Nat → String)

def start (databases : List String) (entity : Entity) : Life :=
  ⟨(World.start databases).host, entity⟩

def play [CustomCodecs] (life : Life) : Event → Except Error Unit × Life
  | .mutate mutation =>
    let (result, entity) := mutation.perform life.entity
    (result.map fun _ => (), { life with entity })
  | .call call store =>
    let ((result, entity), host) :=
      ((call.client store.collection).about life.entity).run (Host.answerFrom draw) life.host
    (result.map fun _ => (), ⟨host, entity⟩)
  | .request request => (.ok (), { life with host := (life.host.answerFrom draw request).2 })
  | .script rows fullCount =>
    (.ok (), { life with
      host := { life.host with server := life.host.server.script rows fullCount } })
  | .fail failure =>
    (.ok (), { life with host := { life.host with failures := life.host.failures ++ [failure] } })

def run [CustomCodecs] (life : Life) (events : List Event) : Life :=
  events.foldl (fun life event => (life.play draw event).2) life

inductive Event.Brings (before after : Entity) : Event → Prop where
  | changed (mutation : Mutation) (h : before.Changed after) :
      Brings before after (.mutate mutation)
  | concluded {call : EntityCall} {store : Store}
      (hname : before.schema.name = store.collection.name)
      (h : store.Concludes before after call) : Brings before after (.call call store)
  | elsewhere {event : Event} (helsewhere : event.isElsewhere = true) (h : after = before) :
      Brings before after event

/-! ## One event -/

section Step

variable {draw : Nat → String} {life : Life} {before after : Entity} {event : Event}

theorem Event.Brings.moves (h : event.Brings before after) :
    event.Moves before.state after.state := by
  cases h with
  | changed mutation hchanged =>
      rw [hchanged.state]
      cases hstate : before.state with
      | unbound => exact .changeAgain mutation (.inl rfl)
      | persisted => exact .change mutation
      | stale => exact .changeAgain mutation (.inr rfl)
      | deleted => exact absurd hstate hchanged.alive
  | concluded _ hconcludes =>
      cases hconcludes with
      | created hstate hafter =>
          rw [hstate, hafter]
          exact .create _
      | renewed _ hcall hstate hafter =>
          rw [hafter]
          rcases hcall with rfl | ⟨moment, rfl⟩
          · exact .update _ hstate
          · exact .refresh _ moment hstate
      | deleted hstate hafter =>
          rw [hafter]
          exact .delete _ hstate
  | elsewhere helsewhere hsame =>
      rw [hsame]
      exact .elsewhere helsewhere _

theorem Event.Brings.isBound (h : event.Brings before after) {name key : String}
    (hbound : before.IsBound name key) : after.IsBound name key := by
  cases h with
  | changed _ hchanged =>
      have hidentity := hchanged.identity hbound.stored
      refine ⟨⟨?_, ?_, ?_⟩, ?_⟩
      · rw [hchanged.schema, hbound.name_eq]
      · rw [hidentity, hbound.key_eq]
      · rw [hidentity, hbound.id_eq]
      · rw [hchanged.state]
        split
        · simp
        · exact hbound.stored
  | concluded hname hconcludes =>
      have hstore := hname.symm.trans hbound.name_eq
      cases hconcludes with
      | created hstate => exact absurd hstate hbound.stored
      | renewed _ _ _ _ known hkey hafter =>
          obtain rfl : known = key := Option.some.inj (hkey.symm.trans hbound.key_eq)
          rw [← hstore]
          exact hafter
      | deleted _ hafter =>
          rw [hafter]
          exact ⟨⟨hbound.name_eq, hbound.key_eq, hbound.id_eq⟩, by simp [Entity.markDeleted]⟩
  | elsewhere _ hsame => rwa [hsame]

variable [CustomCodecs]

theorem identifies_play (h : life.host.server.Identifies) (event : Event) :
    (life.play draw event).2.host.server.Identifies := by
  cases event with
  | mutate mutation => exact h
  | call call store => exact Host.identifies_run h _
  | request request => exact Host.identifies_answerFrom h request
  | script rows fullCount => exact h
  | fail failure => exact h

/-- An event either fails and leaves the entity alone, or succeeds and brings what it is for. -/
theorem play_cases (h : life.host.server.Identifies) (event : Event) :
    (∃ error, (life.play draw event).1 = .error error ∧
      (life.play draw event).2.entity = life.entity) ∨
    ((life.play draw event).1 = .ok () ∧
      event.Brings life.entity (life.play draw event).2.entity) := by
  cases event with
  | mutate mutation =>
      have hends := mutation.ends_perform life.entity
      rcases hperform : mutation.perform life.entity with ⟨result, after⟩
      rw [hperform] at hends
      have hplay : life.play draw (.mutate mutation) =
          (result.map fun _ => (), { life with entity := after }) := by
        simp only [play, hperform]
      rw [hplay]
      cases hends with
      | failed error => exact .inl ⟨error, rfl, rfl⟩
      | changed _ hchanged => exact .inr ⟨rfl, .changed mutation hchanged⟩
  | call call store =>
      have hnext : (((call.client store.collection).about life.entity).run
          (Host.answerFrom draw) life.host).2.server.Identifies := Host.identifies_run h _
      rcases hrun : ((call.client store.collection).about life.entity).run
        (Host.answerFrom draw) life.host with ⟨⟨result, after⟩, next⟩
      rw [hrun] at hnext
      have hplay : life.play draw (.call call store) =
          (result.map fun _ => (), ⟨next, after⟩) := by
        simp only [play, hrun]
      rw [hplay]
      cases result with
      | error error =>
          have hsame := call.unchanged_of_error (congrArg (·.1.1) hrun)
          rw [hrun] at hsame
          exact .inl ⟨error, rfl, hsame⟩
      | ok result =>
          obtain ⟨hname, hconcludes⟩ := Store.concludes_of_ok hnext hrun
          exact .inr ⟨rfl, .concluded hname hconcludes⟩
  | request request => exact .inr ⟨rfl, .elsewhere rfl rfl⟩
  | script rows fullCount => exact .inr ⟨rfl, .elsewhere rfl rfl⟩
  | fail failure => exact .inr ⟨rfl, .elsewhere rfl rfl⟩

theorem isBound_play (h : life.host.server.Identifies) {name key : String}
    (hbound : life.entity.IsBound name key) (event : Event) :
    (life.play draw event).2.entity.IsBound name key := by
  rcases play_cases h event with ⟨_, _, hsame⟩ | ⟨_, hbrings⟩
  · rwa [hsame]
  · exact hbrings.isBound hbound

theorem entity_play_of_deleted (h : life.host.server.Identifies)
    (hdeleted : life.entity.state = .deleted) (event : Event) :
    (life.play draw event).2.entity = life.entity := by
  rcases play_cases h event with ⟨_, _, hsame⟩ | ⟨_, hbrings⟩
  · exact hsame
  · cases hbrings with
    | changed _ hchanged => exact absurd hdeleted hchanged.alive
    | concluded _ hconcludes =>
        have hlive : ¬ life.entity.IsLive := by simp [Entity.IsLive, hdeleted]
        cases hconcludes with
        | created hstate => simp [hdeleted] at hstate
        | renewed _ _ hstate => exact absurd hstate hlive
        | deleted hstate => exact absurd hstate hlive
    | elsewhere _ hsame => exact hsame

theorem isBound_of_call (h : life.host.server.Identifies) {call : EntityCall} {store : Store}
    (hcall : call ≠ .delete) (hok : (life.play draw (.call call store)).1 = .ok ()) :
    ∃ key, (life.play draw (.call call store)).2.entity.IsBound store.collection.name key := by
  rcases play_cases h (.call call store) with ⟨_, herror, _⟩ | ⟨_, hbrings⟩
  · rw [hok] at herror
    simp at herror
  · cases hbrings with
    | concluded _ hconcludes =>
        cases hconcludes with
        | created _ _ key hbound => exact ⟨key, hbound⟩
        | renewed _ _ _ _ key _ hbound => exact ⟨key, hbound⟩
        | deleted => exact absurd rfl hcall
    | elsewhere helsewhere _ => simp [Event.isElsewhere] at helsewhere

end Step

/-! ## All events -/

section Run

variable [CustomCodecs] {draw : Nat → String} {life : Life}

theorem run_cons (life : Life) (event : Event) (events : List Event) :
    life.run draw (event :: events) = (life.play draw event).2.run draw events := rfl

theorem identifies_run (h : life.host.server.Identifies) (events : List Event) :
    (life.run draw events).host.server.Identifies := by
  induction events generalizing life with
  | nil => exact h
  | cons event events ih => exact ih (identifies_play h event)

theorem isBound_run (h : life.host.server.Identifies) {name key : String}
    (hbound : life.entity.IsBound name key) (events : List Event) :
    (life.run draw events).entity.IsBound name key := by
  induction events generalizing life with
  | nil => exact hbound
  | cons event events ih => exact ih (identifies_play h event) (isBound_play h hbound event)

theorem entity_run_of_deleted (h : life.host.server.Identifies)
    (hdeleted : life.entity.state = .deleted) (events : List Event) :
    (life.run draw events).entity = life.entity := by
  induction events generalizing life with
  | nil => rfl
  | cons event events ih =>
      have hsame : (life.play draw event).2.entity = life.entity :=
        entity_play_of_deleted h hdeleted event
      have hnext : (life.play draw event).2.entity.state = .deleted := by rw [hsame, hdeleted]
      rw [run_cons, ih (identifies_play h event) hnext, hsame]

end Run

/-- The rules that the life of an entity follows from some point on. -/
structure Lawful [CustomCodecs] (draw : Nat → String) (life : Life) : Prop where
  /-- An event that fails leaves the entity alone. -/
  failed : ∀ event error, (life.play draw event).1 = .error error →
    (life.play draw event).2.entity = life.entity
  /-- One that succeeds makes one of the moves that it can make. -/
  moves : ∀ event, (life.play draw event).1 = .ok () →
    event.Moves life.entity.state (life.play draw event).2.entity.state
  /-- A call that stores or reads the document settles the key for good. -/
  settled : ∀ call store, call ≠ .delete → (life.play draw (.call call store)).1 = .ok () →
    ∃ key, ∀ later, ((life.play draw (.call call store)).2.run draw later).entity.IsNamed
      store.collection.name key
  /-- So does reading the document into a new entity. -/
  fetched : ∀ (store : Store) (key : String) (fresh : Drawn Entity) (next : Host),
    (store.collection.get key).run.run (Host.answerFrom draw) life.host = (.ok fresh, next) →
    ∀ moment later,
      ((Life.mk next (fresh moment)).run draw later).entity.IsNamed store.collection.name key
  /-- A deleted entity is of no use, and it stays what it is. -/
  deleted : life.entity.state = .deleted →
    life.entity.IsUnusable ∧ ∀ later, (life.run draw later).entity = life.entity

theorem lawful_of_identifies [CustomCodecs] {draw : Nat → String} {life : Life}
    (h : life.host.server.Identifies) : Lawful draw life where
  failed event error herror := by
    rcases play_cases h event with ⟨_, _, hsame⟩ | ⟨hok, _⟩
    · exact hsame
    · rw [hok] at herror
      simp at herror
  moves event hok := by
    rcases play_cases h event with ⟨_, herror, _⟩ | ⟨_, hbrings⟩
    · rw [herror] at hok
      simp at hok
    · exact hbrings.moves
  settled call store hcall hok := by
    obtain ⟨key, hbound⟩ := isBound_of_call h hcall hok
    exact ⟨key, fun later => (isBound_run (identifies_play h _) hbound later).toIsNamed⟩
  fetched store key fresh next hrun moment later := by
    have hnext : ((store.collection.get key).run.run (Host.answerFrom draw)
        life.host).2.server.Identifies := Host.identifies_run h _
    rw [hrun] at hnext
    rw [Collection.run_get] at hrun
    obtain ⟨hfresh, rfl⟩ := Prod.mk.inj hrun
    obtain ⟨document, hdocument, hload⟩ := Store.entityFrom_eq_ok hfresh
    have hbound := Store.isBound_of_load hnext hdocument hload moment
    exact (isBound_run hnext hbound later).toIsNamed
  deleted hdeleted := ⟨Entity.isUnusable_of_deleted hdeleted, entity_run_of_deleted h hdeleted⟩

/-- Whatever happens on a new server, the life of an entity follows the rules at every point. -/
theorem lawful_run [CustomCodecs] (draw : Nat → String) (databases : List String) (entity : Entity)
    (events : List Event) : Lawful draw ((start databases entity).run draw events) := by
  have hstart : (start databases entity).host.server.Identifies :=
    Server.identifies_new databases
  exact lawful_of_identifies (identifies_run hstart events)

attribute [local instance] CustomCodecs.none

/-- A line is stored, changed and written again; somebody else changes it, so that the next update
fails and the line is read again; then it is removed. -/
def lineEvents : List Event := [
  .request ⟨.post, Http.apiPath "_system" ["collection"], [],
    some (.ofMembers [("name", .string "lines"), ("type", .ofNat 3)])⟩,
  .call .create Store.lines,
  .mutate (.set "seats" (.int 6)),
  .call .update Store.lines,
  .request ⟨.put, Http.apiPath "_system" ["document", "lines", "42"], [],
    some (.ofMembers [("_from", .string "places/a"), ("_to", .string "places/c"),
      ("number", .ofNat 42)])⟩,
  .mutate (.remove "seats"),
  .call .update Store.lines,
  .call (.refresh .declared) Store.lines,
  .call .delete Store.lines]

theorem lawful_run_line :
    let life := (start ["_system"] Store.lineEntity).run Host.revision lineEvents
    life.entity.identity.key = some "42" ∧ life.entity.state = .deleted ∧
      life.entity.IsUnusable := by
  have hends : ((start ["_system"] Store.lineEntity).run Host.revision
      lineEvents).entity.identity.key = some "42" ∧ ((start ["_system"] Store.lineEntity).run
      Host.revision lineEvents).entity.state = .deleted := by decide +kernel
  have hlawful := lawful_run Host.revision ["_system"] Store.lineEntity lineEvents
  obtain ⟨hkey, hdeleted⟩ := hends
  exact ⟨hkey, hdeleted, (hlawful.deleted hdeleted).1⟩

/-- The states of the line from one event to the next. -/
example : lineEvents.inits.map (fun events =>
    ((start ["_system"] Store.lineEntity).run Host.revision events).entity.state) =
    [.unbound, .unbound, .persisted, .stale, .persisted, .persisted, .stale, .stale, .persisted,
      .deleted] := by decide +kernel

end Life

end DocGraph
