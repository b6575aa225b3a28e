import DocGraph.Proofs.Entity.Reached
import DocGraph.Proofs.World.Writes
/-!
# What is stored is what the entity says

A client leaves parts of an entity's identity out of what it sends, and may add a key that it
computes; the server puts an identity of its own over what it is sent; and the entity takes over
the identity that it is told.  After all this, the stored document is the dump of the entity.
-/

namespace DocGraph

open Outcome StoredDatabase

variable {draw : Nat → String}

namespace Store

variable {store : Store} {entity after : Entity} {host next : Host} {identity : Identity}

section

variable [CustomCodecs]

theorem dump_of_writes {before afterwards : Server}
    (h : store.collection.Writes entity after before afterwards)
    (hextras : entity.HasPlainExtras) :
    ∃ key document, after.identity.key = some key ∧
      after.identity.id = some (documentHandle store.collection.name key) ∧
      store.collection.schema.dump after = .ok document ∧
      Server.Files before afterwards (store.place key) document := by
  obtain ⟨members, body, key, rev, hdump, hbody, hfiles, rfl⟩ := h
  exact ⟨key, _, rfl, rfl,
    dump_eq_withIdentity store.built hextras hdump hbody.sorted hbody.get? _ key rev, hfiles⟩

/-- After a write that succeeds, the document under the key of the entity is what the entity says,
and all other documents are as they were. -/
theorem stored_as_dumped (hentity : entity.Reached store.collection.schema)
    {write : EntityClient Identity}
    (hwrite : write = store.collection.create ∨ write = store.collection.update)
    (hrun : (write.about entity).run (Host.answerFrom draw) host =
      ((.ok identity, after), next)) :
    ∃ key document, after.identity.key = some key ∧
      after.identity.id = some (documentHandle store.collection.name key) ∧
      store.collection.schema.dump after = .ok document ∧
      next.server.documentAt? (store.place key) = some document ∧
      ∀ place, place ≠ store.place key →
        next.server.documentAt? place = host.server.documentAt? place := by
  have hwrites := Collection.writes_of_write hwrite hrun
  obtain ⟨key, document, hkey, hid, hdump, hfiles⟩ :=
    dump_of_writes hwrites (hentity.hasPlainExtras store.stored)
  refine ⟨key, document, hkey, hid, hdump, (hfiles _).trans (if_pos rfl), ?_⟩
  intro place hplace
  exact (hfiles place).trans (if_neg hplace)

end

/-! ## A line between two places -/

attribute [local instance] CustomCodecs.none

def lines : Store where
  collection := ⟨⟨Config.default, Registry.empty⟩,
    ⟨"lines", .edge, [⟨"number", .primitive .int, true, none, false, none⟩,
      ⟨"seats", .primitive .int, false, some (.fixed (.int 4)), true, none⟩], true, ["number"]⟩⟩
  built := by rfl
  stored := by decide

/-- A line that says nothing of its seats, and something that no field is declared for. -/
def lineEntity : Entity where
  record := ⟨lines.collection.schema, [.held (.int 42), .defaulted (.int 4)],
    [("note", .json (.array [.null]))]⟩
  identity := Identity.empty
  source := some (.id "places/a")
  target := some (.id "places/b")
  state := .unbound

/-- The line as it is stored: under a key made of its number, and without the seats that it does
not have of its own. -/
def lineDocument : Json.Members := [
  ("_from", .string "places/a"),
  ("_id", .string "lines/42"),
  ("_key", .string "42"),
  ("_rev", .string "_rev1"),
  ("_to", .string "places/b"),
  ("note", .array [.null]),
  ("number", .ofInt64 42)]

def lineHost : Host :=
  ((World.start ["_system"]).run Host.revision [.request ⟨.post,
    Http.apiPath "_system" ["collection"], [],
    some (.ofMembers [("name", .string "lines"), ("type", .ofNat 3)])⟩]).host

theorem load_line : lines.collection.schema.load [("_from", .string "places/a"),
    ("_to", .string "places/b"), ("note", .array [.null]), ("number", .ofInt64 42)] =
    .ok fun _ => lineEntity := rfl

def lineCreation : (Except Error Identity × Entity) × Host :=
  (lines.collection.create.about lineEntity).run (Host.answerFrom Host.revision) lineHost

theorem stored_as_dumped_line : ∃ identity after next,
    lineCreation = ((.ok identity, after), next) ∧
    next.server.documentAt? (lines.place "42") = some lineDocument ∧
    lines.collection.schema.dump after = .ok lineDocument := by
  rcases hrun : lineCreation with ⟨⟨result, after⟩, next⟩
  have hok : result.isOk := by
    have h : lineCreation.1.1.isOk := by decide +kernel
    rwa [hrun] at h
  have hkey : after.identity.key = some "42" := by
    have h : lineCreation.1.2.identity.key = some "42" := by decide +kernel
    rwa [hrun] at h
  have hstored : next.server.documentAt? (lines.place "42") = some lineDocument := by
    have h : lineCreation.2.server.documentAt? (lines.place "42") = some lineDocument := by
      decide +kernel
    rwa [hrun] at h
  obtain ⟨identity, rfl⟩ := exists_of_isOk hok
  obtain ⟨key, document, hafter, _, hdump, hdocument, _⟩ :=
    stored_as_dumped (.load load_line .declared) (Or.inl rfl) hrun
  obtain rfl : key = "42" := Option.some.inj (hafter.symm.trans hkey)
  rw [hstored] at hdocument
  refine ⟨identity, after, next, rfl, hstored, ?_⟩
  rw [hdump, Option.some.inj hdocument]

end Store

end DocGraph
