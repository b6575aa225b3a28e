import DocGraph.Proofs.Http.Path
import DocGraph.Proofs.Server.Changes
import DocGraph.Proofs.Server.Moves
import DocGraph.Proofs.Server.Refusal
import DocGraph.Server.Handle
/-!
# What a request comes to

A request is refused, or it is granted and changes one database, or it is granted and concerns the
cursors.  As to the documents it either leaves none behind that was not there before, or files one
fresh document and leaves all others alone.
-/

namespace DocGraph

open Outcome

structure Place where
  database : String
  collection : String
  key : String
deriving DecidableEq

namespace Server

def documentAt? (server : Server) (place : Place) : Option Json.Members :=
  server.document? place.database place.collection place.key

def Keeps (before after : Server) : Prop :=
  ∀ place document, after.documentAt? place = some document →
    before.documentAt? place = some document

def Files (before after : Server) (place : Place) (document : Json.Members) : Prop :=
  ∀ other, after.documentAt? other =
    if other = place then some document else before.documentAt? other

theorem keeps_refl (server : Server) : Keeps server server :=
  fun _ _ h => h

theorem keeps_of_databases_eq {before after : Server} (h : after.databases = before.databases) :
    Keeps before after := by
  intro place document hdocument
  simpa [documentAt?, Server.document?, h] using hdocument

theorem document?_of_database {server : Server} {name : String} {database : StoredDatabase}
    (h : server.databases.get? name = some database) (collection key : String) :
    server.document? name collection key = database.document? collection key := by
  simp [Server.document?, StoredDatabase.document?, h]

theorem eq_new_of_get?_new {databases : List String} {name : String} {database : StoredDatabase}
    (h : (Server.new databases).databases.get? name = some database) :
    database = StoredDatabase.new := by
  have hmem := Assoc.mem_of_mem_ofList (Assoc.mem_of_get?_eq_some h)
  obtain ⟨_, _, heq⟩ := List.mem_map.1 hmem
  exact (Prod.mk.inj heq).2.symm

/-! ## Rulings of a database -/

theorem document?_insert (server : Server) (name : String) (database : StoredDatabase)
    (place : Place) :
    documentAt? { server with databases := server.databases.insert name database } place =
      if place.database = name then database.document? place.collection place.key
      else server.documentAt? place := by
  by_cases hname : place.database = name
  · rw [if_pos hname]
    simp [documentAt?, Server.document?, StoredDatabase.document?, hname]
  · rw [if_neg hname]
    have hne : name ≠ place.database := Ne.symm hname
    simp [documentAt?, Server.document?, Table.get?_insert_of_ne _ hne]

theorem keeps_insert {server : Server} {name : String} {before after : StoredDatabase}
    (hbefore : server.databases.get? name = some before)
    (h : StoredDatabase.Keeps before after) :
    Keeps server { server with databases := server.databases.insert name after } := by
  intro place document hdocument
  rw [document?_insert] at hdocument
  split at hdocument
  · rename_i hname
    rw [documentAt?, hname, document?_of_database hbefore]
    exact h _ _ _ hdocument
  · exact hdocument

theorem files_insert {server : Server} {name collection key : String}
    {before after : StoredDatabase} {document : Json.Members}
    (hbefore : server.databases.get? name = some before)
    (h : StoredDatabase.Files before after collection key document) :
    Files server { server with databases := server.databases.insert name after }
      ⟨name, collection, key⟩ document := by
  intro other
  rw [document?_insert]
  by_cases hname : other.database = name
  · rw [if_pos hname, h, documentAt?, hname, document?_of_database hbefore]
    have hplace : other = ⟨name, collection, key⟩ ↔
        other.collection = collection ∧ other.key = key := by
      obtain ⟨_, _, _⟩ := other
      simp_all
    simp only [hplace]
  · have hplace : other ≠ ⟨name, collection, key⟩ := fun heq => hname (by rw [heq])
    rw [if_neg hname, if_neg hplace]

def IsQuiet (server : Server) (outcome : Outcome) : Prop :=
  outcome.usesRevision = false ∧ Keeps server outcome.server

def IsWrite (server : Server) (fresh : String) (outcome : Outcome) : Prop :=
  outcome.usesRevision = true ∧ ∃ place body, Files server outcome.server place
    (StoredDatabase.withIdentity body place.collection place.key fresh)

/-! ## Outcomes -/

/-- What a request comes to: a refusal, a write or an amendment in a database, or a move of the
cursors.  All but the first are answered with success. -/
inductive Ends (server : Server) (fresh : String) : Outcome → Prop where
  | refuse (refusal : Refusal) : Ends server fresh ⟨refusal.response, server, false⟩
  | write {name : String} {database after : StoredDatabase} {response : Response}
      (hdatabase : server.databases.get? name = some database)
      (hsuccess : response.isSuccess = true) (hwrite : database.Write fresh after) :
      Ends server fresh
        ⟨response, { server with databases := server.databases.insert name after }, true⟩
  | amend {name : String} {database after : StoredDatabase} {response : Response}
      (hdatabase : server.databases.get? name = some database)
      (hsuccess : response.isSuccess = true)
      (hamendments : StoredDatabase.Amendments database after) :
      Ends server fresh
        ⟨response, { server with databases := server.databases.insert name after }, false⟩
  | move {after : Server} {response : Response} (hsuccess : response.isSuccess = true)
      (hmove : server.CursorMove after) : Ends server fresh ⟨response, after, false⟩

section Ends

variable {server : Server} {fresh name : String} {database : StoredDatabase}

theorem ends_settle {ruling : Ruling (Granted Server)}
    (h : ∀ granted, ruling = .ok granted →
      granted.response.isSuccess = true ∧ server.CursorMove granted.state) :
    server.Ends fresh (server.settle ruling) := by
  cases ruling with
  | error refusal => exact .refuse refusal
  | ok granted =>
      obtain ⟨hsuccess, hmove⟩ := h granted rfl
      exact .move hsuccess hmove

theorem ends_settle_within (hdatabase : server.databases.get? name = some database)
    {ruling : Ruling (Granted StoredDatabase)}
    (h : ∀ granted, ruling = .ok granted → database.Amends granted) :
    server.Ends fresh (server.settle (server.within name ruling)) := by
  cases ruling with
  | error refusal => exact .refuse refusal
  | ok granted => exact .amend hdatabase (h granted rfl).success (h granted rfl).amendments

theorem ends_settleWrite (hdatabase : server.databases.get? name = some database)
    {ruling : Ruling (Granted StoredDatabase)}
    (h : ∀ granted, ruling = .ok granted →
      granted.response.isSuccess = true ∧ database.Write fresh granted.state) :
    server.Ends fresh (server.settleWrite name ruling) := by
  cases ruling with
  | error refusal => exact .refuse refusal
  | ok granted =>
      obtain ⟨hsuccess, hwrite⟩ := h granted rfl
      exact .write hdatabase hsuccess hwrite

theorem ends_route (hdatabase : server.databases.get? name = some database) (request : Request)
    (segments : List String) :
    server.Ends fresh (server.route fresh name database request segments) := by
  unfold route
  split
  · exact ends_settleWrite hdatabase fun _ h => StoredDatabase.createDocument_writes h
  · exact ends_settle_within hdatabase fun _ h =>
      StoredDatabase.amends_of_eq (StoredDatabase.readDocument_granted h)
  · exact ends_settleWrite hdatabase fun _ h => StoredDatabase.replaceDocument_writes h
  · exact ends_settle_within hdatabase fun _ h => StoredDatabase.deleteDocument_amends h
  · exact ends_settle fun _ h => openCursor_moves h
  · exact ends_settle fun _ h => nextBatch_moves h
  · exact ends_settle fun _ h => nextBatch_moves h
  · exact ends_settle fun _ h => closeCursor_moves h
  · exact ends_settle_within hdatabase fun _ h =>
      StoredDatabase.amends_of_eq (StoredDatabase.listCollections_granted h)
  · exact ends_settle_within hdatabase fun _ h => StoredDatabase.createCollection_amends h
  · exact ends_settle_within hdatabase fun _ h =>
      StoredDatabase.amends_of_eq (StoredDatabase.readCollection_granted h)
  · exact ends_settle_within hdatabase fun _ h => StoredDatabase.dropCollection_amends h
  · exact ends_settle_within hdatabase fun _ h => StoredDatabase.createGraph_amends h
  · exact ends_settle_within hdatabase fun _ h =>
      StoredDatabase.amends_of_eq (StoredDatabase.readGraph_granted h)
  · exact ends_settle_within hdatabase fun _ h => StoredDatabase.dropGraph_amends h
  · exact ends_settle fun _ h => parseQuery_moves h
  · split
    · exact ends_settle_within hdatabase fun _ h => StoredDatabase.ensureIndex_amends h
    · exact .refuse _
  · exact .refuse _

theorem handle_ends (server : Server) (fresh : String) (request : Request) :
    server.Ends fresh (server.handle fresh request) := by
  unfold handle
  split
  · exact .refuse _
  · split
    · exact .refuse _
    · rename_i hdatabase
      exact ends_route hdatabase request _

theorem Ends.isQuiet_or_isWrite {outcome : Outcome} (h : server.Ends fresh outcome) :
    server.IsQuiet outcome ∨ server.IsWrite fresh outcome := by
  cases h with
  | refuse refusal => exact Or.inl ⟨rfl, keeps_refl server⟩
  | @write name _ _ _ hdatabase _ hwrite =>
      obtain ⟨collection, key, members, hfiles⟩ := hwrite.files
      exact Or.inr ⟨rfl, ⟨name, collection, key⟩, members, files_insert hdatabase hfiles⟩
  | amend hdatabase _ hamendments =>
      exact Or.inl
        ⟨rfl, keeps_insert hdatabase (StoredDatabase.keeps_of_amendments hamendments)⟩
  | move _ hmove => exact Or.inl ⟨rfl, keeps_of_databases_eq hmove.databases⟩

end Ends

/-- A request files at most one document, which is fresh, and keeps or removes all others. -/
theorem handle_cases (server : Server) (fresh : String) (request : Request) :
    server.IsQuiet (server.handle fresh request) ∨
      server.IsWrite fresh (server.handle fresh request) :=
  (server.handle_ends fresh request).isQuiet_or_isWrite

/-! ## Documents by their path -/

theorem handle_apiPath (server : Server) (fresh name : String) (segments : List String)
    {request : Request} (hpath : request.path = Http.apiPath name segments) :
    server.handle fresh request =
      match server.databases.get? name with
      | none => server.settle (.error .databaseNotFound)
      | some database => server.route fresh name database request segments := by
  cases hdatabase : server.databases.get? name with
  | none => simp only [handle, hpath, Http.parsePath?_apiPath, hdatabase]
  | some database => simp only [handle, hpath, Http.parsePath?_apiPath, hdatabase]

theorem documentAt?_create {server : Server} {fresh name collection : String} {request : Request}
    (hmethod : request.method = .post)
    (hpath : request.path = Http.apiPath name ["document", collection]) {place : Place}
    {document : Json.Members} (h : server.documentAt? place = some document) :
    (server.handle fresh request).server.documentAt? place = some document := by
  rw [handle_apiPath server fresh name _ hpath]
  cases hdatabase : server.databases.get? name with
  | none => exact h
  | some database =>
      simp only [route, hmethod]
      cases hruling : database.createDocument fresh collection request.body with
      | error refusal => exact h
      | ok granted =>
          obtain ⟨members, key, _, hfree, _, hfiles⟩ :=
            StoredDatabase.createDocument_eq_ok hruling
          have hplace : place ≠ ⟨name, collection, key⟩ := by
            intro heq
            rw [heq, documentAt?, document?_of_database hdatabase, hfree] at h
            simp at h
          have hfiled := files_insert hdatabase hfiles place
          rw [if_neg hplace, h] at hfiled
          exact hfiled

end Server

end DocGraph
