import DocGraph.Proofs.Client.Refused
import DocGraph.Proofs.Entity.ReadBack
import DocGraph.Proofs.World.Stored
/-!
# Operations on an entity

A client changes an entity by itself, or calls a collection about it.  Either way an operation
that fails leaves the entity as it was.
-/

namespace DocGraph

open Outcome

/-! ## Changes -/

namespace Entity

/-- What a change that succeeded has done beside the contents: the entity differs from its
document from now on, and a document that is stored keeps its identity. -/
structure Changed (before after : Entity) : Prop where
  alive : before.state ≠ .deleted
  state : after.state = if before.state = .persisted then .stale else before.state
  identity : before.state ≠ .unbound → after.identity = before.identity
  schema : after.schema = before.schema

inductive Ends {α : Type} (entity : Entity) : Except Error α × Entity → Prop where
  | failed (error : Error) : Ends entity (.error error, entity)
  | changed (a : α) {after : Entity} (h : Changed entity after) : Ends entity (.ok a, after)

theorem ensureLive_eq_ok {entity : Entity} (h : entity.ensureLive = .ok ()) :
    entity.state ≠ .deleted := by
  unfold ensureLive at h
  split at h
  · simp at h
  · assumption

theorem ensureEdge_eq_ok_iff {entity : Entity} {side : String} :
    entity.ensureEdge side = .ok () ↔ entity.state ≠ .deleted ∧ entity.schema.isEdge = true := by
  unfold ensureEdge ensureLive
  by_cases hdeleted : entity.state = .deleted
  · simp [hdeleted]
  · by_cases hedge : entity.schema.isEdge = true
    · simp [hdeleted, hedge]
    · simp [hdeleted, hedge]

theorem state_touch (entity : Entity) :
    entity.touch.state = if entity.state = .persisted then .stale else entity.state := by
  unfold touch
  split <;> rfl

theorem identity_touch (entity : Entity) : entity.touch.identity = entity.identity := by
  unfold touch
  split <;> rfl

theorem changed_touch {before next : Entity} (halive : before.state ≠ .deleted)
    (hstate : next.state = before.state) (hidentity : next.identity = before.identity)
    (hschema : next.schema = before.schema) : Changed before next.touch where
  alive := halive
  state := by rw [state_touch, hstate]
  identity _ := (identity_touch next).trans hidentity
  schema := (congrArg Record.schema (record_touch next)).trans hschema

theorem Changed.alive_after {before after : Entity} (h : Changed before after) :
    after.state ≠ .deleted := by
  rw [h.state]
  split
  · simp
  · exact h.alive

theorem Changed.trans {first second third : Entity} (h : Changed first second)
    (h' : Changed second third) : Changed first third where
  alive := h.alive
  state := by
    rw [h'.state, h.state]
    by_cases hpersisted : first.state = .persisted
    · simp [hpersisted]
    · simp [hpersisted]
  identity hbound := by
    have hsecond : second.state ≠ .unbound := by
      rw [h.state]
      split
      · simp
      · exact hbound
    exact (h'.identity hsecond).trans (h.identity hbound)
  schema := h'.schema.trans h.schema

namespace Edit

theorem ends_set (name : String) (value : Value) (entity : Entity) :
    Ends entity (perform (.set name value) entity) := by
  rw [perform_set]
  split
  · rename_i record hlive hset
    exact .changed () (changed_touch (ensureLive_eq_ok hlive) rfl rfl (Record.schema_of_set hset))
  · exact .failed _
  · exact .failed _

theorem ends_remove (name : String) (entity : Entity) :
    Ends entity (perform (.remove name) entity) := by
  rw [perform_remove]
  split
  · rename_i previous record hlive hremove
    exact .changed previous
      (changed_touch (ensureLive_eq_ok hlive) rfl rfl (Record.schema_of_remove hremove))
  · exact .failed _
  · exact .failed _

theorem ends_setKey (key : String) (entity : Entity) :
    Ends entity (perform (.setKey key) entity) := by
  by_cases hunbound : entity.state = .unbound
  · have hperform : perform (.setKey key) entity =
        (.ok (), { entity with identity := { entity.identity with key := some key } }) := by
      unfold setKey
      rw [perform_get_bind, if_pos hunbound]
      rfl
    rw [hperform]
    refine .changed () ⟨by simp [hunbound], ?_, fun hne => absurd hunbound hne, rfl⟩
    simp [hunbound]
  · have hperform : perform (.setKey key) entity = (.error (.invalidSchema
        ("cannot change the key of persisted entity " ++ entity.handle)), entity) := by
      unfold setKey
      rw [perform_get_bind, if_neg hunbound]
      rfl
    rw [hperform]
    exact .failed _

theorem ends_setSource (endpoint : Endpoint) (entity : Entity) :
    Ends entity (perform (.setSource endpoint) entity) := by
  rw [perform_setSource]
  split
  · rename_i hedge
    exact .changed () (changed_touch (ensureEdge_eq_ok_iff.1 hedge).1 rfl rfl rfl)
  · exact .failed _

theorem ends_setTarget (endpoint : Endpoint) (entity : Entity) :
    Ends entity (perform (.setTarget endpoint) entity) := by
  rw [perform_setTarget]
  split
  · rename_i hedge
    exact .changed () (changed_touch (ensureEdge_eq_ok_iff.1 hedge).1 rfl rfl rfl)
  · exact .failed _

theorem ends_connect (source target : Endpoint) (entity : Entity) :
    Ends entity (perform (.connect source target) entity) := by
  rw [perform_connect, perform_setSource]
  cases hsource : entity.ensureEdge "_from" with
  | error error => exact .failed error
  | ok _ =>
      obtain ⟨halive, hedge⟩ := ensureEdge_eq_ok_iff.1 hsource
      have hfirst : Changed entity { entity with source := some source }.touch :=
        changed_touch halive rfl rfl rfl
      have htarget : { entity with source := some source }.touch.ensureEdge "_to" = .ok () := by
        apply ensureEdge_eq_ok_iff.2
        exact ⟨hfirst.alive_after, by rw [hfirst.schema]; exact hedge⟩
      dsimp only
      rw [perform_setTarget, htarget]
      exact .changed () (hfirst.trans (changed_touch hfirst.alive_after rfl rfl rfl))

end Edit

end Entity

theorem Mutation.ends_perform (mutation : Mutation) (entity : Entity) :
    entity.Ends (mutation.perform entity) := by
  cases mutation with
  | set name value => exact Entity.Edit.ends_set name value entity
  | remove name => exact Entity.Edit.ends_remove name entity
  | setKey key => exact Entity.Edit.ends_setKey key entity
  | setSource endpoint => exact Entity.Edit.ends_setSource endpoint entity
  | setTarget endpoint => exact Entity.Edit.ends_setTarget endpoint entity
  | connect source target => exact Entity.Edit.ends_connect source target entity

/-! ## Operations that fail -/

namespace Entity

/-- Whatever a transport answers, an operation that fails leaves the entity as it was; and a call
fails without having sent anything exactly when the collection refuses the entity. -/
theorem unchanged_of_failed [CustomCodecs] {σ : Type} (answer : σ → Request → Answer × σ)
    (transport : σ) (entity : Entity) :
    (∀ (mutation : Mutation) (error : Error), (mutation.perform entity).1 = .error error →
      (mutation.perform entity).2 = entity) ∧
    ∀ (call : EntityCall) (collection : Collection) (error : Error),
      let conversation := (call.client collection).about entity
      let ended := conversation.run answer transport
      (ended.1.1 = .error error → ended.1.2 = entity) ∧
        (collection.Refuses entity call error ↔
          ended.1.1 = .error error ∧ conversation.sent answer transport = []) := by
  constructor
  · intro mutation error herror
    have hends := mutation.ends_perform entity
    generalize mutation.perform entity = outcome at hends herror
    cases hends with
    | failed _ => rfl
    | changed _ _ => simp at herror
  · intro call collection error
    exact ⟨call.unchanged_of_error, call.refuses_iff⟩

attribute [local instance] CustomCodecs.none

def staleLine : Entity :=
  { Store.lineEntity with
    identity := ⟨some "42", some "lines/42", some "_rev1"⟩
    state := .stale }

/-- A transport on which the answer comes that somebody else has changed the document. -/
def overtaken : Transport := .ofScript [.ok ⟨412, .ofMembers [("_rev", .string "_rev2")]⟩]

/-- The changed line is neither written over the other revision nor created a second time, and the
second attempt does not get as far as the transport. -/
theorem unchanged_of_failed_line :
    let update := (EntityCall.update.client Store.lines.collection).about staleLine
    let create := (EntityCall.create.client Store.lines.collection).about staleLine
    (∃ cause, (update.run Transport.execute overtaken).1.1 =
      .error (.conflict "lines/42" (some "_rev2") cause)) ∧
    (update.run Transport.execute overtaken).1.2 = staleLine ∧
    (update.sent Transport.execute overtaken).length = 1 ∧
    (create.run Transport.execute overtaken).1.2 = staleLine ∧
    create.sent Transport.execute overtaken = [] := by
  obtain ⟨_, hcalls⟩ := unchanged_of_failed Transport.execute overtaken staleLine
  have hconflict : (((EntityCall.update.client Store.lines.collection).about staleLine).run
      Transport.execute overtaken).1.1 = .error (.conflict "lines/42" (some "_rev2")
        (some (.api ⟨412, 0, ""⟩))) := rfl
  have hrefused : Store.lines.collection.Refuses staleLine .create
      (.alreadyExists staleLine.handle none) := .stored rfl (.inr rfl)
  obtain ⟨hupdate, _⟩ := hcalls .update Store.lines.collection _
  obtain ⟨hcreate, hiff⟩ := hcalls .create Store.lines.collection _
  obtain ⟨herror, hsent⟩ := hiff.1 hrefused
  exact ⟨⟨_, hconflict⟩, hupdate hconflict, rfl, hcreate herror, hsent⟩

end Entity

end DocGraph
