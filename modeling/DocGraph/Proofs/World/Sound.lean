import DocGraph.Proofs.World.Basic
/-!
# What holds in every world

A revision names a document for good: no two places have one in common, and what an entity took
over with a revision is what lies under this revision as long as anything does.
-/

namespace DocGraph

open StoredDatabase

variable {draw : Nat → String}

/-! ## The server -/

namespace Host

/-- Every document has an identity of its own, with a revision that was drawn. -/
structure Sound (draw : Nat → String) (host : Host) : Prop where
  identified : ∀ place document, host.server.documentAt? place = some document →
    ∃ n ≤ host.revisions, Identified document (documentHandle place.collection place.key)
      place.key (draw n)
  distinct : ∀ place other document document', host.server.documentAt? place = some document →
    host.server.documentAt? other = some document' →
    Assoc.get? "_rev" document = Assoc.get? "_rev" document' → place = other

theorem answerFrom_cases (draw : Nat → String) (host : Host) (request : Request) :
    ((host.answerFrom draw request).2.revisions = host.revisions ∧
      Server.Keeps host.server (host.answerFrom draw request).2.server) ∨
    ((host.answerFrom draw request).2.revisions = host.revisions + 1 ∧
      ∃ place body, Server.Files host.server (host.answerFrom draw request).2.server place
        (withIdentity body place.collection place.key (draw (host.revisions + 1)))) := by
  unfold answerFrom
  split
  · exact Or.inl ⟨rfl, Server.keeps_refl host.server⟩
  · rcases Server.handle_cases host.server (draw (host.revisions + 1)) request with
      ⟨huses, hkeeps⟩ | ⟨huses, place, body, hfiles⟩
    · exact Or.inl ⟨by simp [huses], hkeeps⟩
    · exact Or.inr ⟨by simp [huses], place, body, hfiles⟩

theorem documentAt?_new (databases : List String) (place : Place) :
    (Server.new databases).documentAt? place = none := by
  cases hdatabase : (Server.new databases).databases.get? place.database with
  | none => simp [Server.documentAt?, Server.document?, hdatabase]
  | some database =>
      rw [Server.documentAt?, Server.document?_of_database hdatabase,
        Server.eq_new_of_get?_new hdatabase]
      by_cases hgraphs : "_graphs" = place.collection
      · simp [document?, StoredDatabase.new, hgraphs, StoredCollection.empty]
      · simp [document?, StoredDatabase.new, Table.get?_insert_of_ne _ hgraphs]

theorem Sound.start (databases : List String) : (World.start databases).host.Sound draw := by
  constructor
  · intro place document hdocument
    rw [World.start, documentAt?_new] at hdocument
    simp at hdocument
  · intro place other document document' hdocument
    rw [World.start, documentAt?_new] at hdocument
    simp at hdocument

/-- A fresh revision is none that a document has. -/
theorem Sound.rev_ne_fresh {host : Host} (h : host.Sound draw)
    (hdraw : ∀ m n, draw m = draw n → m = n) {place : Place} {document : Json.Members}
    (hdocument : host.server.documentAt? place = some document) :
    Assoc.get? "_rev" document ≠ some (.string (draw (host.revisions + 1))) := by
  obtain ⟨n, hn, hidentified⟩ := h.identified place document hdocument
  intro heq
  rw [hidentified.rev] at heq
  have hsame : n = host.revisions + 1 := hdraw _ _ (Json.string.inj (Option.some.inj heq))
  omega

theorem Sound.answerFrom {host : Host} (h : host.Sound draw)
    (hdraw : ∀ m n, draw m = draw n → m = n) (request : Request) :
    (host.answerFrom draw request).2.Sound draw := by
  rcases answerFrom_cases draw host request with ⟨hcount, hkeeps⟩ | ⟨hcount, place, body, hfiles⟩
  · constructor
    · intro other document hdocument
      rw [hcount]
      exact h.identified other document (hkeeps other document hdocument)
    · intro first second document document' hfirst hsecond
      exact h.distinct first second document document' (hkeeps first document hfirst)
        (hkeeps second document' hsecond)
  · constructor
    · intro other document hdocument
      rw [hfiles other] at hdocument
      split at hdocument
      · rename_i heq
        obtain rfl := Option.some.inj hdocument
        rw [heq]
        exact ⟨host.revisions + 1, by omega, identified_withIdentity body _ _ _⟩
      · obtain ⟨n, hn, hidentified⟩ := h.identified other document hdocument
        exact ⟨n, by omega, hidentified⟩
    · intro first second document document' hfirst hsecond hrev
      rw [hfiles first] at hfirst
      rw [hfiles second] at hsecond
      split at hfirst
      · rename_i hfirstPlace
        -- The document just filed has the fresh revision, which no other one has.
        obtain rfl := Option.some.inj hfirst
        split at hsecond
        · rename_i hsecondPlace
          rw [hfirstPlace, hsecondPlace]
        · rw [get?_rev_withIdentity] at hrev
          exact absurd hrev.symm (h.rev_ne_fresh hdraw hsecond)
      · split at hsecond
        · obtain rfl := Option.some.inj hsecond
          rw [get?_rev_withIdentity] at hrev
          exact absurd hrev (h.rev_ne_fresh hdraw hfirst)
        · exact h.distinct first second document document' hfirst hsecond hrev

end Host

/-! ## The entities -/

/-- An entity knows the revision of what it read or wrote, and nothing else that is stored has
this revision. -/
structure Adoption.Binds (draw : Nat → String) (host : Host) (adoption : Adoption)
    (identity : Identity) : Prop where
  key : identity.key = some adoption.place.key
  rev : ∃ n ≤ host.revisions, identity.rev = some (draw n)
  known : Assoc.get? "_rev" adoption.document = identity.rev.map .string
  only : ∀ place document, host.server.documentAt? place = some document →
    Assoc.get? "_rev" document = identity.rev.map .string →
    place = adoption.place ∧ document = adoption.document

namespace Adoption

theorem Binds.answerFrom {host : Host} {adoption : Adoption} {identity : Identity}
    (h : adoption.Binds draw host identity) (hdraw : ∀ m n, draw m = draw n → m = n)
    (request : Request) : adoption.Binds draw (host.answerFrom draw request).2 identity := by
  obtain ⟨n, hn, hrev⟩ := h.rev
  refine ⟨h.key, ?_, h.known, ?_⟩
  · rcases Host.answerFrom_cases draw host request with ⟨hcount, _⟩ | ⟨hcount, _⟩
    · exact ⟨n, by omega, hrev⟩
    · exact ⟨n, by omega, hrev⟩
  · intro place document hdocument hknown
    rcases Host.answerFrom_cases draw host request with
      ⟨_, hkeeps⟩ | ⟨_, written, body, hfiles⟩
    · exact h.only place document (hkeeps place document hdocument) hknown
    · rw [hfiles place] at hdocument
      split at hdocument
      · obtain rfl := Option.some.inj hdocument
        rw [get?_rev_withIdentity, hrev] at hknown
        have hfresh : host.revisions + 1 = n :=
          hdraw _ _ (Json.string.inj (Option.some.inj hknown))
        omega
      · exact h.only place document hdocument hknown

theorem binds_of_documentAt? {host : Host} (h : host.Sound draw) {place : Place}
    {document : Json.Members} (hdocument : host.server.documentAt? place = some document)
    {identity : Identity} {id rev : String}
    (hidentified : Identified document id place.key rev)
    (hkey : identity.key = some place.key) (hrev : identity.rev = some rev) :
    Binds draw host ⟨place, document⟩ identity := by
  obtain ⟨n, hn, hdrawn⟩ := h.identified place document hdocument
  have hsame : rev = draw n := by
    have heq := hidentified.rev.symm.trans hdrawn.rev
    exact Json.string.inj (Option.some.inj heq)
  refine ⟨hkey, ⟨n, hn, by rw [hrev, hsame]⟩, by rw [hrev]; exact hidentified.rev, ?_⟩
  intro other document' hother hknown
  rw [hrev] at hknown
  have hplace : other = place :=
    h.distinct other place document' document hother hdocument
      (hknown.trans hidentified.rev.symm)
  refine ⟨hplace, ?_⟩
  rw [hplace, hdocument] at hother
  exact (Option.some.inj hother).symm

end Adoption

/-- An entity that is live knows what it last read or wrote. -/
structure HeldEntity.Sound (draw : Nat → String) (host : Host) (held : HeldEntity) : Prop where
  extras : held.entity.HasPlainExtras
  adopted : held.entity.IsLive →
    ∃ adoption, held.adoption? = some adoption ∧ adoption.Binds draw host held.entity.identity

theorem Mutation.edited_apply (mutation : Mutation) (entity : Entity) :
    Entity.Edited entity (mutation.apply entity) := by
  cases mutation with
  | set name value => exact Entity.edited_set name value entity
  | remove name => exact Entity.edited_remove name entity
  | setKey key => exact Entity.edited_setKey key entity
  | setSource endpoint => exact Entity.edited_setSource endpoint entity
  | setTarget endpoint => exact Entity.edited_setTarget endpoint entity
  | connect source target => exact Entity.edited_connect source target entity

namespace HeldEntity

theorem Sound.mutate {host : Host} {held : HeldEntity} (h : held.Sound draw host)
    (mutation : Mutation) :
    HeldEntity.Sound draw host { held with entity := mutation.apply held.entity } := by
  have hedited := mutation.edited_apply held.entity
  refine ⟨hedited.extras h.extras, fun hlive => ?_⟩
  obtain ⟨hbefore, hidentity⟩ := hedited.live hlive
  obtain ⟨adoption, hadoption, hbinds⟩ := h.adopted hbefore
  exact ⟨adoption, hadoption, by rw [hidentity]; exact hbinds⟩

theorem Sound.answerFrom {host : Host} {held : HeldEntity} (h : held.Sound draw host)
    (hdraw : ∀ m n, draw m = draw n → m = n) (request : Request) :
    held.Sound draw (host.answerFrom draw request).2 := by
  refine ⟨h.extras, fun hlive => ?_⟩
  obtain ⟨adoption, hadoption, hbinds⟩ := h.adopted hlive
  exact ⟨adoption, hadoption, hbinds.answerFrom hdraw request⟩

theorem sound_new (host : Host) (schema : Schema) (moment : Moment)
    (adoption? : Option Adoption) :
    HeldEntity.Sound draw host ⟨Entity.new schema moment, adoption?⟩ := by
  refine ⟨fun name hname => by simp [Entity.new, Record.new] at hname, fun hlive => ?_⟩
  rcases hlive with h | h
  · simp [Entity.new] at h
  · simp [Entity.new] at h

end HeldEntity

end DocGraph
