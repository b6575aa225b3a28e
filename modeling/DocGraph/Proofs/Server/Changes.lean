import DocGraph.Proofs.Server.Documents
import DocGraph.Server.Catalog
/-!
# Changes to a database

A granted request either files one document, or it goes through changes of a few kinds that bring
no documents: a document is removed, a collection comes or goes, its indexes or the graphs change.
-/

namespace DocGraph.StoredDatabase

open Outcome

/-! ## Kinds of changes -/

/-- A document is filed, in a collection that has none under its key or instead of another one. -/
inductive Write (fresh : String) (database : StoredDatabase) : StoredDatabase → Prop where
  | create {name : String} {stored : StoredCollection} {members : Json.Members} {key : String}
      {lastKey : Nat} (hstored : database.collections.get? name = some stored)
      (hedge : checkEdge stored members = .ok ())
      (hkey : database.chooseKey stored members = .ok (key, lastKey)) :
      Write fresh database
        { database.putDocument name stored key (withIdentity members name key fresh) with lastKey }
  | replace {name : String} {stored : StoredCollection} {members current : Json.Members}
      {key : String} (hstored : database.collections.get? name = some stored)
      (hedge : checkEdge stored members = .ok ())
      (hcurrent : stored.documents.get? key = some current) :
      Write fresh database
        (database.putDocument name stored key (withIdentity members name key fresh))

inductive Amendment (database : StoredDatabase) : StoredDatabase → Prop where
  | remove {name : String} {stored : StoredCollection}
      (hstored : database.collections.get? name = some stored) (key : String) :
      Amendment database { database with
        collections := database.collections.insert name
          { stored with documents := stored.documents.erase key } }
  | add {name : String} (hfree : database.collections.get? name = none) (type : CollectionType)
      (isSystem : Bool) :
      Amendment database { database with
        collections := database.collections.insert name (.empty type isSystem) }
  | drop (name : String) :
      Amendment database { database with collections := database.collections.erase name }
  | index {name : String} {stored : StoredCollection}
      (hstored : database.collections.get? name = some stored) (indexes : List Json.Members) :
      Amendment database { database with
        collections := database.collections.insert name { stored with indexes } }
  | graphs (graphs : Table Json) : Amendment database { database with graphs }

abbrev Amendments := Relation.ReflTransGen Amendment

variable {database after : StoredDatabase} {fresh : String}

theorem Write.files (h : Write fresh database after) :
    ∃ name key members, Files database after name key (withIdentity members name key fresh) := by
  cases h with
  | create hstored => exact ⟨_, _, _, files_of_insert hstored rfl⟩
  | replace hstored => exact ⟨_, _, _, files_of_insert hstored rfl⟩

theorem Amendment.keeps (h : Amendment database after) : Keeps database after := by
  cases h with
  | remove hstored key => exact (removes_of_erase hstored rfl).keeps
  | @add name =>
      intro other key document hdocument
      by_cases hother : name = other
      · subst hother
        simp [document?, StoredCollection.empty] at hdocument
      · simpa [document?, Table.get?_insert_of_ne _ hother] using hdocument
  | drop name =>
      intro other key document hdocument
      by_cases hother : name = other
      · subst hother
        simp [document?] at hdocument
      · simpa [document?, Table.get?_erase_of_ne _ hother] using hdocument
  | @index name stored hstored =>
      intro other key document hdocument
      by_cases hother : name = other
      · subst hother
        rw [document?_of_collection hstored]
        simpa [document?] using hdocument
      · simpa [document?, Table.get?_insert_of_ne _ hother] using hdocument
  | graphs => exact keeps_refl database

theorem keeps_of_amendments (h : Amendments database after) : Keeps database after := by
  induction h with
  | refl => exact keeps_refl database
  | tail _ hlast ih =>
      intro name key document hdocument
      exact ih name key document (hlast.keeps name key document hdocument)

/-! ## What is granted -/

structure Amends (database : StoredDatabase) (granted : Granted StoredDatabase) : Prop where
  success : granted.response.isSuccess = true
  amendments : Amendments database granted.state

section Granted

variable {name : String} {body : Option Json} {granted : Granted StoredDatabase}

/-! Some requests only look at a database. -/

theorem amends_of_eq (h : ∃ body, granted = ⟨⟨200, body⟩, database⟩) : Amends database granted := by
  obtain ⟨body, rfl⟩ := h
  exact ⟨rfl, .refl⟩

theorem readDocument_granted {key : String} (h : database.readDocument name key = .ok granted) :
    ∃ body, granted = ⟨⟨200, body⟩, database⟩ := by
  obtain ⟨_, _, h⟩ := bind_eq_ok_iff.1 h
  split at h
  · exact ⟨_, (Except.ok.inj h).symm⟩
  · simp at h

theorem listCollections_granted {excludesSystem : Bool}
    (h : database.listCollections excludesSystem = .ok granted) :
    ∃ body, granted = ⟨⟨200, body⟩, database⟩ :=
  ⟨_, (Except.ok.inj h).symm⟩

theorem readCollection_granted (h : database.readCollection name = .ok granted) :
    ∃ body, granted = ⟨⟨200, body⟩, database⟩ := by
  obtain ⟨_, _, h⟩ := bind_eq_ok_iff.1 h
  exact ⟨_, (Except.ok.inj h).symm⟩

theorem readGraph_granted (h : database.readGraph name = .ok granted) :
    ∃ body, granted = ⟨⟨200, body⟩, database⟩ := by
  unfold readGraph at h
  split at h
  · exact ⟨_, (Except.ok.inj h).symm⟩
  · simp at h

/-! The others change it. -/

theorem createDocument_writes (h : database.createDocument fresh name body = .ok granted) :
    granted.response.isSuccess = true ∧ Write fresh database granted.state := by
  obtain ⟨_, _, _, _, _, hstored, hedge, hkey, rfl⟩ := createDocument_granted h
  exact ⟨rfl, .create hstored hedge hkey⟩

theorem replaceDocument_writes {key : String} {checksRev : Bool}
    (h : database.replaceDocument fresh name key body checksRev = .ok granted) :
    granted.response.isSuccess = true ∧ Write fresh database granted.state := by
  obtain ⟨_, _, _, _, hstored, hedge, hcurrent, _, rfl⟩ := replaceDocument_granted h
  exact ⟨rfl, .replace hstored hedge hcurrent⟩

theorem deleteDocument_amends {key : String}
    (h : database.deleteDocument name key = .ok granted) : Amends database granted := by
  obtain ⟨_, _, hstored, _, rfl⟩ := deleteDocument_granted h
  exact ⟨rfl, .single (.remove hstored key)⟩

theorem createCollection_amends (h : database.createCollection body = .ok granted) :
    Amends database granted := by
  simp only [createCollection, throw_eq_error, error_bind] at h
  split at h
  · simp at h
  · split at h
    · simp at h
    · rename_i hfree
      obtain rfl := Except.ok.inj h
      exact ⟨rfl, .single (.add (by simpa [Table.contains] using hfree) _ _)⟩

theorem dropCollection_amends (h : database.dropCollection name = .ok granted) :
    Amends database granted := by
  obtain ⟨_, _, h⟩ := bind_eq_ok_iff.1 h
  obtain rfl := Except.ok.inj h
  exact ⟨rfl, .single (.drop name)⟩

theorem amendments_addCollections (named : List (String × CollectionType))
    (database : StoredDatabase) :
    Amendments database { database with
      collections := named.foldl addCollection database.collections } := by
  induction named generalizing database with
  | nil => exact .refl
  | cons head named ih =>
      have hhead : Amendments database
          { database with collections := addCollection database.collections head } := by
        unfold addCollection
        split
        · exact .refl
        · rename_i hfree
          exact .single (.add (by simpa [Table.contains] using hfree) _ _)
      exact hhead.trans (ih _)

theorem amendments_eraseAll (names : List String) (database : StoredDatabase) :
    Amendments database { database with
      collections := names.foldl Table.erase database.collections } := by
  induction names generalizing database with
  | nil => exact .refl
  | cons name names ih => exact (Relation.ReflTransGen.single (.drop name)).trans (ih _)

theorem createGraph_amends (h : database.createGraph body = .ok granted) :
    Amends database granted := by
  simp only [createGraph, throw_eq_error, error_bind] at h
  split at h
  · split at h
    · simp at h
    · obtain rfl := Except.ok.inj h
      exact ⟨rfl, (amendments_addCollections _ database).tail (.graphs _)⟩
  · simp at h

theorem dropGraph_amends {dropsCollections : Bool}
    (h : database.dropGraph name dropsCollections = .ok granted) : Amends database granted := by
  unfold dropGraph at h
  split at h
  · simp at h
  · obtain rfl := Except.ok.inj h
    exact ⟨rfl, (amendments_eraseAll _ database).tail (.graphs _)⟩

theorem ensureIndex_amends (h : database.ensureIndex name body = .ok granted) :
    Amends database granted := by
  unfold ensureIndex at h
  split at h
  · obtain ⟨stored, hstored, h⟩ := bind_eq_ok_iff.1 h
    split at h
    · obtain rfl := Except.ok.inj h
      exact ⟨rfl, .refl⟩
    · obtain rfl := Except.ok.inj h
      exact ⟨rfl, .single (.index (collection_eq_ok hstored) _)⟩
  · simp at h

end Granted

end DocGraph.StoredDatabase
