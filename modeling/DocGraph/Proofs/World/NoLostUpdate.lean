import DocGraph.Proofs.World.Moves
/-!
# No update is lost

Whatever the clients of a server do, in whatever order: an update that succeeds overwrites just
what its entity last read or wrote, one that would overwrite something else is refused and told
so, and a creation overwrites nothing.
-/

namespace DocGraph.World

open StoredDatabase

section

variable [CustomCodecs] (draw : Nat → String) (world : World) (held : HeldEntity) (store : Store)

/-- An update that succeeds writes one document, where it has found the revision that the entity
took over last, on the very document that the entity last read or wrote. -/
def OverwritesAdopted : Prop :=
  ∀ identity after next,
    world.outcome draw store.collection.update held.entity = ((.ok identity, after), next) →
    ∃ key document, held.entity.identity.key = some key ∧
      world.host.server.documentAt? (store.place key) = some document ∧
      held.adoption? = some ⟨store.place key, document⟩ ∧
      Assoc.get? "_rev" document = held.entity.identity.rev.map .string ∧
      ∃ written, Server.Files world.host.server next.server (store.place key) written

/-- An update that reaches the server is told when the document is gone, and which revision is
there instead of the one that the entity knows; neither changes anything. -/
def RefusesOutdated : Prop :=
  ∀ request resume, store.collection.update.about held.entity = .ask request resume →
    world.host.failures = [] → store.Fits world.host.server →
    ∃ key, held.entity.identity.key = some key ∧
      match world.host.server.documentAt? (store.place key) with
      | none => ∃ cause, world.outcome draw store.collection.update held.entity =
          ((.error (.notFound (store.collection.handle key) cause), held.entity), world.host)
      | some document =>
        Assoc.get? "_rev" document ≠ held.entity.identity.rev.map .string →
        ∃ rev cause, Assoc.get? "_rev" document = some (.string rev) ∧
          world.outcome draw store.collection.update held.entity =
            ((.error (.conflict (store.collection.handle key) (some rev) cause), held.entity),
              world.host)

/-- A creation, successful or not, keeps every document that is stored. -/
def CreationKeeps : Prop :=
  ∀ place document, world.host.server.documentAt? place = some document →
    (world.outcome draw store.collection.create held.entity).2.server.documentAt? place =
      some document

variable {draw world held}

theorem Sound.overwritesAdopted (h : world.Sound draw) (hheld : held.Sound draw world.host) :
    OverwritesAdopted draw world held store := by
  intro identity after next hrun
  obtain ⟨key, current, hlive, hkey, hcurrent, hrev, _, _, written, hfiles, _⟩ :=
    Store.update_eq_ok h.host hheld.extras hheld.exists_rev hrun
  obtain ⟨adoption, hadoption, hbinds⟩ := hheld.adopted hlive
  obtain ⟨hplace, hdocument⟩ := hbinds.only (store.place key) current hcurrent hrev
  refine ⟨key, current, hkey, hcurrent, ?_, hrev, written, hfiles⟩
  rw [hadoption, hplace, hdocument]

theorem Sound.refusesOutdated (h : world.Sound draw) (hheld : held.Sound draw world.host) :
    RefusesOutdated draw world held store := by
  intro request resume hask hfailures hfits
  rw [Collection.about_update] at hask
  cases hplan : store.collection.planUpdate held.entity with
  | error error => simp [hplan, askOnce] at hask
  | ok plan =>
      obtain ⟨key, members⟩ := plan
      obtain ⟨hlive, hkey, _⟩ := Collection.planUpdate_eq_ok hplan
      obtain ⟨known, hknown⟩ := hheld.exists_rev hlive
      refine ⟨key, hkey, ?_⟩
      split
      · rename_i hmissing
        exact Store.update_of_missing hplan hfailures hheld.extras hfits hmissing
      · rename_i document hdocument
        intro hne
        obtain ⟨n, _, hidentified⟩ := h.host.identified _ document hdocument
        have hrev : draw n ≠ known := by
          intro heq
          rw [hidentified.rev, hknown, heq] at hne
          exact hne rfl
        obtain ⟨cause, hrun⟩ := Store.update_of_conflict hplan hfailures hheld.extras hfits hknown
          hdocument hidentified hrev
        exact ⟨draw n, cause, hidentified.rev, hrun⟩

variable (draw world held)

theorem creationKeeps : CreationKeeps draw world held store := by
  intro place document hdocument
  rw [World.outcome, Collection.about_create]
  cases hplan : store.collection.planCreate held.entity with
  | error error =>
      rw [run_askOnce_of_error rfl]
      exact hdocument
  | ok plan =>
      rw [run_askOnce_of_ok rfl]
      obtain ⟨body, hsent⟩ := Store.planCreate_eq_ok hplan
      have hmethod : plan.2.method = .post := by rw [hsent]
      have hpath : plan.2.path = Http.apiPath store.collection.database.config.database
          ["document", store.collection.name] := by
        rw [hsent]
        exact store.documentPath_none
      unfold Host.answerFrom
      split
      · exact hdocument
      · exact Server.documentAt?_create hmethod hpath hdocument

variable {draw}

/-- No update is lost in any world that clients can bring about. -/
theorem no_lost_update (hdraw : ∀ m n, draw m = draw n → m = n) (databases : List String)
    (moves : List Move) {held : HeldEntity}
    (hheld : held ∈ ((start databases).run draw moves).entities) (store : Store) :
    OverwritesAdopted draw ((start databases).run draw moves) held store ∧
      RefusesOutdated draw ((start databases).run draw moves) held store ∧
      CreationKeeps draw ((start databases).run draw moves) held store := by
  have hsound := (Sound.start databases).run hdraw moves
  have hsoundHeld := hsound.entities held hheld
  exact ⟨hsound.overwritesAdopted store hsoundHeld, hsound.refusesOutdated store hsoundHeld,
    creationKeeps draw _ held store⟩

end

theorem revision_injective {m n : Nat} (h : Host.revision m = Host.revision n) : m = n := by
  have hlists := congrArg String.toList h
  rw [Host.revision, Host.revision, String.toList_append, String.toList_append] at hlists
  exact Nat.repr_injective (String.toList_inj.1 (List.append_cancel_left hlists))

attribute [local instance] CustomCodecs.none

def quays : Store where
  collection := ⟨⟨Config.default, Registry.empty⟩,
    ⟨"quays", .document, [⟨"name", .primitive .string, false, none, false, none⟩], false, []⟩⟩
  built := by rfl
  stored := by decide

def quayMoves : List Move := [
  .request ⟨.post, Http.apiPath "_system" ["collection"], [],
    some (.ofMembers [("name", .string "quays"), ("type", .ofNat 2)])⟩,
  .new quays.collection.schema .declared,
  .create 0 quays,
  .copy 0,
  .mutate 0 (.set "name" (.string "North")),
  .update 0 quays]

/-- The other client of the two knows an old revision, and will be told the current one. -/
theorem no_lost_update_quays : ∃ held, held ∈
    ((start ["_system"]).run Host.revision quayMoves).entities ∧
    held.entity.identity.rev = some (Host.revision 1) ∧
    (((start ["_system"]).run Host.revision quayMoves).host.server.documentAt?
      (quays.place "1")).bind (Assoc.get? "_rev") = some (.string (Host.revision 2)) ∧
    OverwritesAdopted Host.revision ((start ["_system"]).run Host.revision quayMoves) held quays ∧
    RefusesOutdated Host.revision ((start ["_system"]).run Host.revision quayMoves) held quays ∧
    CreationKeeps Host.revision ((start ["_system"]).run Host.revision quayMoves) held quays := by
  have hlength : 1 < ((start ["_system"]).run Host.revision quayMoves).entities.length := by
    decide +kernel
  refine ⟨_, List.getElem_mem hlength, by decide +kernel +revert, by decide +kernel, ?_⟩
  exact no_lost_update (fun _ _ => revision_injective) ["_system"] quayMoves
    (List.getElem_mem hlength) quays

end DocGraph.World
