import DocGraph.Proofs.Assoc
import DocGraph.Proofs.Outcome
import DocGraph.Proofs.Text.Parts
import DocGraph.Server.Documents
import Mathlib
/-!
# What the document operations do

A granted creation files a fresh document where there was none, a granted replacement files one
where there was one, and a granted removal leaves the other documents alone.
-/

namespace DocGraph

open Outcome

theorem Json.eq_string_of_asString? {json : Json} {s : String} (h : json.asString? = some s) :
    json = .string s := by
  cases json with
  | string other => exact congrArg string (Option.some.inj h)
  | _ => simp [asString?] at h

theorem cut?_documentHandle_iff {handle collection key : String} :
    Text.cut? '/' handle = some (collection, key) ↔
      handle = documentHandle collection key ∧ '/' ∉ collection.toList := by
  rw [Text.cut?_eq_some_iff]
  apply and_congr_left
  intro _
  have hslash : (documentHandle collection key).toList =
      collection.toList ++ '/' :: key.toList := by
    simp [documentHandle]
  rw [← hslash, String.toList_inj]

namespace StoredDatabase

def document? (database : StoredDatabase) (name key : String) : Option Json.Members :=
  (database.collections.get? name).bind fun stored => stored.documents.get? key

/-! ## Identities of stored documents -/

theorem get?_rev_withIdentity (body : Json.Members) (name key rev : String) :
    Assoc.get? "_rev" (withIdentity body name key rev) = some (.string rev) :=
  Assoc.get?_insert_self _ _ _

theorem get?_id_withIdentity (body : Json.Members) (name key rev : String) :
    Assoc.get? "_id" (withIdentity body name key rev) =
      some (.string (documentHandle name key)) := by
  unfold withIdentity
  rw [Assoc.get?_insert_of_ne (by decide), Assoc.get?_insert_self]

theorem get?_key_withIdentity (body : Json.Members) (name key rev : String) :
    Assoc.get? "_key" (withIdentity body name key rev) = some (.string key) := by
  unfold withIdentity
  rw [Assoc.get?_insert_of_ne (by decide), Assoc.get?_insert_of_ne (by decide),
    Assoc.get?_insert_self]

theorem get?_withIdentity_of_not_mem (body : Json.Members) (name key rev : String)
    {other : String} (h : other ∉ ["_id", "_key", "_rev"]) :
    Assoc.get? other (withIdentity body name key rev) = Assoc.get? other body := by
  simp only [List.mem_cons, List.not_mem_nil, or_false, not_or] at h
  obtain ⟨hid, hkey, hrev⟩ := h
  simp only [withIdentity, Assoc.get?_insert_of_ne (Ne.symm hid),
    Assoc.get?_insert_of_ne (Ne.symm hkey), Assoc.get?_insert_of_ne (Ne.symm hrev)]

structure Identified (document : Json.Members) (id key rev : String) : Prop where
  id : Assoc.get? "_id" document = some (.string id)
  key : Assoc.get? "_key" document = some (.string key)
  rev : Assoc.get? "_rev" document = some (.string rev)

theorem identified_withIdentity (body : Json.Members) (name key rev : String) :
    Identified (withIdentity body name key rev) (documentHandle name key) key rev :=
  ⟨get?_id_withIdentity body name key rev, get?_key_withIdentity body name key rev,
    get?_rev_withIdentity body name key rev⟩

theorem identityMembers_of_identified {document : Json.Members} {id key rev : String}
    (h : Identified document id key rev) :
    identityMembers document =
      [("_id", .string id), ("_key", .string key), ("_rev", .string rev)] := by
  simp [identityMembers, h.id, h.key, h.rev]

/-! ## Fresh keys -/

theorem exists_fresh_candidate (documents : Table Json.Members) (last : Nat) :
    ∃ n ∈ (List.range (documents.size + 1)).map (last + 1 + ·),
      documents.contains (toString n) = false := by
  by_contra hnone
  have hall : ∀ n ∈ (List.range (documents.size + 1)).map (last + 1 + ·),
      documents.contains (toString n) = true := by
    intro n hn
    by_contra hfree
    exact hnone ⟨n, hn, by simpa using hfree⟩
  let texts := ((List.range (documents.size + 1)).map (last + 1 + ·)).map toString
  have hnodup : texts.Nodup := by
    refine List.Nodup.map (fun m n h => Nat.repr_injective h) ?_
    exact List.Nodup.map (fun m n h => by omega) List.nodup_range
  have hsubset : texts ⊆ documents.keys := by
    intro text htext
    obtain ⟨n, hn, rfl⟩ := List.mem_map.1 htext
    obtain ⟨document, hget⟩ := Option.isSome_iff_exists.1 (hall n hn)
    exact List.mem_map.2 ⟨_, Assoc.mem_of_get?_eq_some hget, rfl⟩
  have hlength : texts.length ≤ documents.keys.length := (hnodup.subperm hsubset).length_le
  simp [texts, Table.keys, Table.size] at hlength

theorem find?_nextKey (documents : Table Json.Members) (last : Nat) :
    (((List.range (documents.size + 1)).map (last + 1 + ·)).find? fun n : Nat =>
      !documents.contains (toString n)) = some (nextKey documents last) := by
  obtain ⟨n, hn, hfree⟩ := exists_fresh_candidate documents last
  have hsome : (((List.range (documents.size + 1)).map (last + 1 + ·)).find? fun n : Nat =>
      !documents.contains (toString n)).isSome :=
    List.find?_isSome.2 ⟨n, hn, by rw [hfree]; rfl⟩
  obtain ⟨m, hm⟩ := Option.isSome_iff_exists.1 hsome
  rw [nextKey, hm, Option.getD_some]

theorem get?_nextKey (documents : Table Json.Members) (last : Nat) :
    documents.get? (toString (nextKey documents last)) = none := by
  have hcontains := List.find?_some (find?_nextKey documents last)
  simpa [Table.contains] using hcontains

/-! ## What a request leaves behind -/

def Keeps (before after : StoredDatabase) : Prop :=
  ∀ name key document, after.document? name key = some document →
    before.document? name key = some document

/-- One document was filed, the others are as they were. -/
def Files (before after : StoredDatabase) (name key : String) (document : Json.Members) : Prop :=
  ∀ other k, after.document? other k =
    if other = name ∧ k = key then some document else before.document? other k

def Removes (before after : StoredDatabase) (name key : String) : Prop :=
  ∀ other k, after.document? other k =
    if other = name ∧ k = key then none else before.document? other k

theorem keeps_refl (database : StoredDatabase) : Keeps database database :=
  fun _ _ _ h => h

theorem Removes.keeps {before after : StoredDatabase} {name key : String}
    (h : Removes before after name key) : Keeps before after := by
  intro other k document hdocument
  rw [h] at hdocument
  split at hdocument
  · simp at hdocument
  · exact hdocument

theorem collection_eq_ok {database : StoredDatabase} {name : String} {stored : StoredCollection}
    (h : database.collection name = .ok stored) :
    database.collections.get? name = some stored := by
  unfold collection at h
  split at h
  · rename_i found hfound
    obtain rfl := Except.ok.inj h
    exact hfound
  · simp at h

theorem documentBody_eq_ok {body : Option Json} {members : Json.Members}
    (h : documentBody body = .ok members) : body = some (.object members) := by
  unfold documentBody at h
  split at h
  · obtain rfl := Except.ok.inj h
    rfl
  · simp at h

theorem document?_of_collection {database : StoredDatabase} {name : String}
    {stored : StoredCollection} (h : database.collections.get? name = some stored)
    (key : String) : database.document? name key = stored.documents.get? key := by
  simp [document?, h]

theorem files_of_insert {database after : StoredDatabase} {name key : String}
    {stored : StoredCollection} {document : Json.Members}
    (hstored : database.collections.get? name = some stored)
    (hafter : after.collections = database.collections.insert name
      { stored with documents := stored.documents.insert key document }) :
    Files database after name key document := by
  intro other k
  by_cases hother : other = name
  · rw [hother, document?_of_collection hstored]
    simp only [document?, hafter, Table.get?_insert_self, Option.bind_some, Table.get?_insert,
      true_and, eq_comm]
  · have hne : name ≠ other := Ne.symm hother
    simp [document?, hafter, Table.get?_insert_of_ne _ hne, hother]

theorem removes_of_erase {database after : StoredDatabase} {name key : String}
    {stored : StoredCollection} (hstored : database.collections.get? name = some stored)
    (hafter : after.collections = database.collections.insert name
      { stored with documents := stored.documents.erase key }) :
    Removes database after name key := by
  intro other k
  by_cases hother : other = name
  · rw [hother, document?_of_collection hstored]
    simp only [document?, hafter, Table.get?_insert_self, Option.bind_some, Table.get?_erase,
      true_and, eq_comm]
  · have hne : name ≠ other := Ne.symm hother
    simp [document?, hafter, Table.get?_insert_of_ne _ hne, hother]

/-! ## The operations -/

/-- The key of a new document is free and not empty, and it is the one that is asked for if one
is. -/
theorem chooseKey_eq_ok {database : StoredDatabase} {stored : StoredCollection}
    {body : Json.Members} {key : String} {lastKey : Nat}
    (h : database.chooseKey stored body = .ok (key, lastKey)) :
    stored.documents.get? key = none ∧ key ≠ "" ∧
      ∀ named, Assoc.get? "_key" body = some (.string named) → key = named := by
  unfold chooseKey at h
  split at h
  · rename_i hnone
    obtain ⟨rfl, _⟩ := Prod.mk.inj (Except.ok.inj h)
    refine ⟨get?_nextKey _ _, Nat.repr_ne_empty, fun named hnamed => ?_⟩
    simp [hnone] at hnamed
  · rename_i named hsome
    split at h
    · simp at h
    · rename_i hne
      split at h
      · simp at h
      · rename_i hfree
        obtain ⟨rfl, _⟩ := Prod.mk.inj (Except.ok.inj h)
        refine ⟨by simpa [Table.contains] using hfree, hne, fun other hother => ?_⟩
        rw [hsome] at hother
        exact Json.string.inj (Option.some.inj hother)
  · simp at h

theorem createDocument_granted {database : StoredDatabase} {fresh name : String}
    {body : Option Json} {granted : Granted StoredDatabase}
    (h : database.createDocument fresh name body = .ok granted) :
    ∃ members stored key lastKey, body = some (.object members) ∧
      database.collections.get? name = some stored ∧ checkEdge stored members = .ok () ∧
      database.chooseKey stored members = .ok (key, lastKey) ∧
      granted = ⟨⟨201, .object (identityMembers (withIdentity members name key fresh))⟩,
        { database.putDocument name stored key (withIdentity members name key fresh) with
          lastKey }⟩ := by
  unfold createDocument at h
  obtain ⟨members, hbody, h⟩ := bind_eq_ok_iff.1 h
  obtain ⟨stored, hstored, h⟩ := bind_eq_ok_iff.1 h
  obtain ⟨_, hedge, h⟩ := bind_eq_ok_iff.1 h
  obtain ⟨⟨key, lastKey⟩, hkey, h⟩ := bind_eq_ok_iff.1 h
  exact ⟨members, stored, key, lastKey, documentBody_eq_ok hbody, collection_eq_ok hstored, hedge,
    hkey, (Except.ok.inj h).symm⟩

/-- A document is created only where there was none. -/
theorem createDocument_eq_ok {database : StoredDatabase} {fresh name : String}
    {body : Option Json} {granted : Granted StoredDatabase}
    (h : database.createDocument fresh name body = .ok granted) :
    ∃ members key, body = some (.object members) ∧ database.document? name key = none ∧
      granted.response = ⟨201, .object (identityMembers (withIdentity members name key fresh))⟩ ∧
      Files database granted.state name key (withIdentity members name key fresh) := by
  obtain ⟨members, stored, key, lastKey, hbody, hstored, _, hkey, rfl⟩ :=
    createDocument_granted h
  refine ⟨members, key, hbody, ?_, rfl, files_of_insert hstored rfl⟩
  rw [document?_of_collection hstored]
  exact (chooseKey_eq_ok hkey).1

theorem readDocument_eq_ok {database : StoredDatabase} {name key : String}
    {granted : Granted StoredDatabase} (h : database.readDocument name key = .ok granted) :
    granted.state = database ∧ ∃ document, database.document? name key = some document ∧
      granted.response = ⟨200, .object document⟩ := by
  unfold readDocument at h
  obtain ⟨stored, hstored, h⟩ := bind_eq_ok_iff.1 h
  rw [document?_of_collection (collection_eq_ok hstored)]
  split at h
  · rename_i document hdocument
    obtain rfl := Except.ok.inj h
    exact ⟨rfl, document, hdocument, rfl⟩
  · simp at h

theorem replaceDocument_granted {database : StoredDatabase} {fresh name key : String}
    {body : Option Json} {checksRev : Bool} {granted : Granted StoredDatabase}
    (h : database.replaceDocument fresh name key body checksRev = .ok granted) :
    ∃ members stored current, body = some (.object members) ∧
      database.collections.get? name = some stored ∧ checkEdge stored members = .ok () ∧
      stored.documents.get? key = some current ∧
      (checksRev = true → checkRev current members = .ok ()) ∧
      granted = ⟨⟨201, .object (Assoc.insert "_oldRev" ((Assoc.get? "_rev" current).getD .null)
          (identityMembers (withIdentity members name key fresh)))⟩,
        database.putDocument name stored key (withIdentity members name key fresh)⟩ := by
  unfold replaceDocument at h
  obtain ⟨members, hbody, h⟩ := bind_eq_ok_iff.1 h
  obtain ⟨stored, hstored, h⟩ := bind_eq_ok_iff.1 h
  obtain ⟨_, hedge, h⟩ := bind_eq_ok_iff.1 h
  split at h
  · simp at h
  · rename_i current hcurrent
    refine ⟨members, stored, current, documentBody_eq_ok hbody, collection_eq_ok hstored, hedge,
      hcurrent, ?_⟩
    cases checksRev with
    | true =>
        obtain ⟨_, hrev, h⟩ := bind_eq_ok_iff.1 h
        exact ⟨fun _ => hrev, (Except.ok.inj h).symm⟩
    | false => exact ⟨fun h => by simp at h, (Except.ok.inj h).symm⟩

/-- A document is replaced only where there was one, and on demand only if its revision is the one
the request knows. -/
theorem replaceDocument_eq_ok {database : StoredDatabase} {fresh name key : String}
    {body : Option Json} {checksRev : Bool} {granted : Granted StoredDatabase}
    (h : database.replaceDocument fresh name key body checksRev = .ok granted) :
    ∃ members current, body = some (.object members) ∧
      database.document? name key = some current ∧
      (checksRev = true → checkRev current members = .ok ()) ∧
      granted.response = ⟨201, .object (Assoc.insert "_oldRev"
        ((Assoc.get? "_rev" current).getD .null)
        (identityMembers (withIdentity members name key fresh)))⟩ ∧
      Files database granted.state name key (withIdentity members name key fresh) := by
  obtain ⟨members, stored, current, hbody, hstored, _, hcurrent, hrev, rfl⟩ :=
    replaceDocument_granted h
  refine ⟨members, current, hbody, ?_, hrev, rfl, files_of_insert hstored rfl⟩
  rw [document?_of_collection hstored]
  exact hcurrent

theorem agrees_string_iff {text : String} {other : Json} :
    (Json.string text).agrees other = true ↔ other = .string text := by
  cases other with
  | string s =>
      simp only [Json.agrees, Json.matchesBy, beq_iff_eq, Json.string.injEq]
      exact eq_comm
  | _ => simp [Json.agrees, Json.matchesBy]

/-- A text that is known as the revision passes exactly when it is the revision. -/
theorem checkRev_eq {current body : Json.Members} {known rev : String}
    (hbody : Assoc.get? "_rev" body = some (.string known))
    (hcurrent : Assoc.get? "_rev" current = some (.string rev)) :
    checkRev current body = if rev = known then .ok () else .error (.revisionConflict current) := by
  unfold checkRev
  rw [hbody, hcurrent, Option.getD_some]
  by_cases heq : rev = known
  · have hagrees : (Json.string known).agrees (.string rev) = true :=
      agrees_string_iff.2 (by rw [heq])
    rw [if_pos heq]
    simp [hagrees]
  · have hagrees : ¬ (Json.string known).agrees (.string rev) = true := fun h =>
      heq (Json.string.inj (agrees_string_iff.1 h))
    rw [if_neg heq]
    simp [hagrees]

theorem replaceDocument_of_missing {database : StoredDatabase} {fresh name key : String}
    {members : Json.Members} {checksRev : Bool}
    (hedge : ∀ stored, database.collections.get? name = some stored →
      checkEdge stored members = .ok ())
    (hmissing : database.document? name key = none) :
    ∃ refusal, database.replaceDocument fresh name key (some (.object members)) checksRev =
      .error refusal ∧ (refusal = .collectionNotFound ∨ refusal = .documentNotFound) := by
  unfold replaceDocument documentBody collection
  cases hstored : database.collections.get? name with
  | none => exact ⟨.collectionNotFound, rfl, Or.inl rfl⟩
  | some stored =>
      rw [document?_of_collection hstored] at hmissing
      refine ⟨.documentNotFound, ?_, Or.inr rfl⟩
      simp only [ok_bind, hedge stored hstored, hmissing]
      rfl

theorem replaceDocument_of_conflict {database : StoredDatabase} {fresh name key : String}
    {members current : Json.Members} {refusal : Refusal}
    (hedge : ∀ stored, database.collections.get? name = some stored →
      checkEdge stored members = .ok ())
    (hcurrent : database.document? name key = some current)
    (hrev : checkRev current members = .error refusal) :
    database.replaceDocument fresh name key (some (.object members)) true = .error refusal := by
  unfold replaceDocument documentBody collection
  cases hstored : database.collections.get? name with
  | none => simp [document?, hstored] at hcurrent
  | some stored =>
      rw [document?_of_collection hstored] at hcurrent
      simp only [ok_bind, hedge stored hstored, hcurrent, hrev, if_true, error_bind]

theorem deleteDocument_granted {database : StoredDatabase} {name key : String}
    {granted : Granted StoredDatabase} (h : database.deleteDocument name key = .ok granted) :
    ∃ stored document, database.collections.get? name = some stored ∧
      stored.documents.get? key = some document ∧
      granted = ⟨⟨200, .object (identityMembers document)⟩,
        { database with
          collections := database.collections.insert name
            { stored with documents := stored.documents.erase key } }⟩ := by
  unfold deleteDocument at h
  obtain ⟨stored, hstored, h⟩ := bind_eq_ok_iff.1 h
  split at h
  · simp at h
  · rename_i document hdocument
    exact ⟨stored, document, collection_eq_ok hstored, hdocument, (Except.ok.inj h).symm⟩

theorem deleteDocument_eq_ok {database : StoredDatabase} {name key : String}
    {granted : Granted StoredDatabase} (h : database.deleteDocument name key = .ok granted) :
    Removes database granted.state name key := by
  obtain ⟨stored, document, hstored, _, rfl⟩ := deleteDocument_granted h
  exact removes_of_erase hstored rfl

end StoredDatabase

end DocGraph
