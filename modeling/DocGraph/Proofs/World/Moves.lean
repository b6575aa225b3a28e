import DocGraph.Proofs.World.Calls
/-!
# Moves keep every world sound

Each move of a client asks at most one request and leaves an entity alone when it fails; what it
makes of a success is bound to the document that was stored or read.
-/

namespace DocGraph

open StoredDatabase

variable {draw : Nat → String}

/-! ## The invariant -/

structure World.Sound (draw : Nat → String) (world : World) : Prop where
  host : world.host.Sound draw
  entities : ∀ held ∈ world.entities, held.Sound draw world.host

/-- An operation asks at most one request, and leaves its entity alone when it fails. -/
def EntityClient.IsSingle {α : Type} (draw : Nat → String) (client : EntityClient α) : Prop :=
  ∀ entity host result after next,
    (client.about entity).run (Host.answerFrom draw) host = ((result, after), next) →
    (next = host ∨ ∃ asked, next = (host.answerFrom draw asked).2) ∧
      ∀ error, result = .error error → after = entity

theorem HeldEntity.sound_adopted {store : Store} {next : Host} (hsound : next.Sound draw)
    {after : Entity} (hextras : after.HasPlainExtras) {key id rev : String}
    {document : Json.Members}
    (hdocument : next.server.documentAt? (store.place key) = some document)
    (hidentified : Identified document id key rev)
    (hidentity : after.identity = ⟨some key, some id, some rev⟩) :
    HeldEntity.Sound draw next ⟨after, next.adoption? store after⟩ := by
  refine ⟨hextras, fun _ => ⟨⟨store.place key, document⟩, ?_, ?_⟩⟩
  · simp [Host.adoption?, hidentity, hdocument]
  · exact Adoption.binds_of_documentAt? hsound hdocument hidentified
      (by rw [hidentity]; rfl) (by rw [hidentity])

theorem HeldEntity.Sound.exists_rev {host : Host} {held : HeldEntity}
    (h : held.Sound draw host) (hlive : held.entity.IsLive) :
    ∃ rev, held.entity.identity.rev = some rev := by
  obtain ⟨_, _, hbinds⟩ := h.adopted hlive
  obtain ⟨n, _, hrev⟩ := hbinds.rev
  exact ⟨draw n, hrev⟩

namespace World

theorem Sound.start (databases : List String) : (start databases).Sound draw :=
  ⟨Host.Sound.start databases, fun held hmem => by simp [World.start] at hmem⟩

theorem Sound.answerFrom {world : World} (h : world.Sound draw)
    (hdraw : ∀ m n, draw m = draw n → m = n) (request : Request) :
    Sound draw ⟨(world.host.answerFrom draw request).2, world.entities⟩ :=
  ⟨h.host.answerFrom hdraw request,
    fun held hmem => (h.entities held hmem).answerFrom hdraw request⟩

theorem Sound.append {world : World} (h : world.Sound draw) {held : HeldEntity}
    (hheld : held.Sound draw world.host) :
    Sound draw ⟨world.host, world.entities ++ [held]⟩ := by
  refine ⟨h.host, fun other hmem => ?_⟩
  rcases List.mem_append.1 hmem with hmem | hmem
  · exact h.entities other hmem
  · rw [List.mem_singleton.1 hmem]
    exact hheld

theorem Sound.mutate {world : World} (h : world.Sound draw) (index : Nat) (mutation : Mutation) :
    Sound draw { world with
      entities := world.entities.modify index fun held =>
        { held with entity := mutation.apply held.entity } } := by
  refine ⟨h.host, fun held hmem => ?_⟩
  obtain ⟨i, hi, hget⟩ := List.getElem_of_mem hmem
  dsimp only at hi hget
  have hbound : i < world.entities.length := by simpa using hi
  have hbefore := h.entities world.entities[i] (List.getElem_mem hbound)
  rw [List.getElem_modify] at hget
  split at hget
  · rw [← hget]
    exact hbefore.mutate mutation
  · rw [← hget]
    exact hbefore

theorem Sound.fail {world : World} (h : world.Sound draw) (failures : List TransportError) :
    Sound draw ⟨{ world.host with failures }, world.entities⟩ := by
  refine ⟨⟨h.host.identified, h.host.distinct⟩, fun held hmem => ?_⟩
  have hheld := h.entities held hmem
  refine ⟨hheld.extras, fun hlive => ?_⟩
  obtain ⟨adoption, hadoption, hbinds⟩ := hheld.adopted hlive
  exact ⟨adoption, hadoption, ⟨hbinds.key, hbinds.rev, hbinds.known, hbinds.only⟩⟩

theorem Sound.call {α : Type} {world : World} (h : world.Sound draw)
    (hdraw : ∀ m n, draw m = draw n → m = n) (index : Nat) (store : Store)
    {client : EntityClient α} (hsingle : client.IsSingle draw)
    (hok : ∀ held ∈ world.entities, ∀ a after next, next.Sound draw →
      (client.about held.entity).run (Host.answerFrom draw) world.host = ((.ok a, after), next) →
      HeldEntity.Sound draw next ⟨after, next.adoption? store after⟩) :
    (world.call draw index store client).Sound draw := by
  unfold World.call
  cases hheld : world.entities[index]? with
  | none => exact h
  | some held =>
      have hmem : held ∈ world.entities := List.mem_of_getElem? hheld
      rcases hrun : world.outcome draw client held.entity with ⟨⟨result, after⟩, next⟩
      obtain ⟨hnext, hfail⟩ := hsingle _ _ _ _ _ hrun
      have hsound : Sound draw ⟨next, world.entities⟩ := by
        rcases hnext with rfl | ⟨asked, rfl⟩
        · exact h
        · exact h.answerFrom hdraw asked
      simp only [hrun]
      refine ⟨hsound.host, fun other hother => ?_⟩
      rcases List.mem_or_eq_of_mem_set hother with hother | rfl
      · exact hsound.entities other hother
      · cases result with
        | error error =>
            rw [hfail error rfl]
            exact hsound.entities held hmem
        | ok a => exact hok held hmem a after next hsound.host hrun

theorem isSingle_delete (collection : Collection) : collection.delete.IsSingle draw := by
  intro entity host result after next h
  rw [Collection.about_delete] at h
  exact run_askOnce_cases h

variable [CustomCodecs]

theorem isSingle_create (collection : Collection) : collection.create.IsSingle draw := by
  intro entity host result after next h
  rw [Collection.about_create] at h
  exact run_askOnce_cases h

theorem isSingle_update (collection : Collection) : collection.update.IsSingle draw := by
  intro entity host result after next h
  rw [Collection.about_update] at h
  exact run_askOnce_cases h

theorem isSingle_refresh (collection : Collection) (moment : Moment) :
    (collection.refresh moment).IsSingle draw := by
  intro entity host result after next h
  rw [Collection.about_refresh] at h
  exact run_askOnce_cases h

/-! ## Moves keep the invariant -/

section Moves

variable {world : World}

theorem Sound.create (h : world.Sound draw) (hdraw : ∀ m n, draw m = draw n → m = n)
    (index : Nat) (store : Store) :
    (world.call draw index store store.collection.create).Sound draw := by
  refine h.call hdraw index store (isSingle_create _) ?_
  intro held hmem identity after next hnext hrun
  obtain ⟨key, id, rev, document, hdocument, hidentified, rfl⟩ := Store.create_eq_ok hrun
  exact HeldEntity.sound_adopted hnext (h.entities held hmem).extras hdocument hidentified rfl

theorem Sound.update (h : world.Sound draw) (hdraw : ∀ m n, draw m = draw n → m = n)
    (index : Nat) (store : Store) :
    (world.call draw index store store.collection.update).Sound draw := by
  refine h.call hdraw index store (isSingle_update _) ?_
  intro held hmem identity after next hnext hrun
  have hheld := h.entities held hmem
  obtain ⟨key, current, _, _, _, _, id, rev, document, hfiles, hidentified, rfl⟩ :=
    Store.update_eq_ok h.host hheld.extras hheld.exists_rev hrun
  have hdocument : next.server.documentAt? (store.place key) = some document :=
    (hfiles (store.place key)).trans (if_pos rfl)
  exact HeldEntity.sound_adopted hnext hheld.extras hdocument hidentified rfl

theorem Sound.refresh (h : world.Sound draw) (hdraw : ∀ m n, draw m = draw n → m = n)
    (index : Nat) (store : Store) (moment : Moment) :
    (world.call draw index store (store.collection.refresh moment)).Sound draw := by
  refine h.call hdraw index store (isSingle_refresh _ moment) ?_
  intro held hmem result after next hnext hrun
  obtain ⟨key, document, fresh, _, hdocument, hload, rfl⟩ := Store.refresh_eq_ok hrun
  obtain ⟨hextras, id, rev, hidentified, hidentity⟩ :=
    Store.load_eq_ok hnext hdocument hload moment
  exact HeldEntity.sound_adopted hnext hextras hdocument hidentified hidentity

omit [CustomCodecs] in
theorem Sound.delete (h : world.Sound draw) (hdraw : ∀ m n, draw m = draw n → m = n)
    (index : Nat) (store : Store) :
    (world.call draw index store store.collection.delete).Sound draw := by
  refine h.call hdraw index store (isSingle_delete _) ?_
  intro held hmem result after next hnext hrun
  rw [Collection.about_delete] at hrun
  obtain ⟨_, _, _, _, rfl, _⟩ := run_askOnce_eq_ok hrun
  refine ⟨(h.entities held hmem).extras, fun hlive => ?_⟩
  rcases hlive with hstate | hstate
  · simp [Entity.markDeleted] at hstate
  · simp [Entity.markDeleted] at hstate

theorem Sound.fetch (h : world.Sound draw) (hdraw : ∀ m n, draw m = draw n → m = n)
    (store : Store) (key : String) (moment : Moment) :
    (world.fetch draw store key moment).Sound draw := by
  have hnext := h.answerFrom hdraw (store.collection.readRequest key)
  unfold World.fetch
  rw [Collection.run_get]
  simp only [Exchange.run]
  cases hresult : store.collection.entityFrom key
      (world.host.answerFrom draw (store.collection.readRequest key)).1 with
  | error error => exact hnext
  | ok entity =>
      obtain ⟨document, hdocument, hload⟩ := Store.entityFrom_eq_ok hresult
      obtain ⟨hextras, id, rev, hidentified, hidentity⟩ :=
        Store.load_eq_ok hnext.host hdocument hload moment
      exact hnext.append
        (HeldEntity.sound_adopted hnext.host hextras hdocument hidentified hidentity)

theorem Sound.play (h : world.Sound draw) (hdraw : ∀ m n, draw m = draw n → m = n)
    (move : Move) : (world.play draw move).Sound draw := by
  cases move with
  | new schema moment => exact h.append (HeldEntity.sound_new world.host schema moment none)
  | copy index =>
      cases hheld : world.entities[index]? with
      | none => simpa [World.play, hheld] using h
      | some held =>
          have hcopy := h.append (h.entities held (List.mem_of_getElem? hheld))
          simpa [World.play, hheld] using hcopy
  | mutate index mutation => exact h.mutate index mutation
  | create index store => exact h.create hdraw index store
  | get store key moment => exact h.fetch hdraw store key moment
  | update index store => exact h.update hdraw index store
  | refresh index store moment => exact h.refresh hdraw index store moment
  | delete index store => exact h.delete hdraw index store
  | request request => exact h.answerFrom hdraw request
  | fail failure => exact h.fail _

theorem Sound.run (h : world.Sound draw) (hdraw : ∀ m n, draw m = draw n → m = n)
    (moves : List Move) : (world.run draw moves).Sound draw := by
  induction moves generalizing world with
  | nil => exact h
  | cons move moves ih => exact ih (h.play hdraw move)

end Moves

end World

end DocGraph
