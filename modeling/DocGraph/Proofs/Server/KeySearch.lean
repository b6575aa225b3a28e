import DocGraph.Proofs.Server.Handle
import DocGraph.Server.KeySearch
/-!
# A document without a key is given a fresh one

The search for a key ends at the first free number after the last one that was tried, if 64 bits
hold it.  The documents of a collection take no more numbers than there are documents, so a free
number is met after one round more at the latest, whatever keys clients asked for.
-/

namespace DocGraph

open Outcome

namespace StoredDatabase

/-! ## The first free number -/

/-- The first number after another one whose text is no key. -/
structure FirstFree (documents : Table Json.Members) (last number : Nat) : Prop where
  later : last < number
  free : documents.contains (toString number) = false
  taken : ∀ n, last < n → n < number → documents.contains (toString n) = true

section FirstFree

variable {documents : Table Json.Members} {last number : Nat}

theorem firstFree_iff_of_taken (htaken : documents.contains (toString (last + 1)) = true) :
    FirstFree documents last number ↔ FirstFree documents (last + 1) number := by
  constructor
  · rintro ⟨hlater, hfree, hbetween⟩
    have hne : number ≠ last + 1 := by
      rintro rfl
      rw [htaken] at hfree
      cases hfree
    exact ⟨by omega, hfree, fun n hn => hbetween n (by omega)⟩
  · rintro ⟨hlater, hfree, hbetween⟩
    refine ⟨by omega, hfree, fun n hn hlt => ?_⟩
    rcases Nat.eq_or_lt_of_le (Nat.succ_le_of_lt hn) with rfl | hafter
    · exact htaken
    · exact hbetween n hafter hlt

theorem firstFree_iff_of_free (hfree : documents.contains (toString (last + 1)) = false) :
    FirstFree documents last number ↔ number = last + 1 := by
  constructor
  · rintro ⟨hlater, _, hbetween⟩
    by_contra hne
    have htaken := hbetween (last + 1) (by omega) (by omega)
    rw [hfree] at htaken
    cases htaken
  · rintro rfl
    exact ⟨by omega, hfree, fun n hn hlt => by omega⟩

/-- The number of a new document is the first free one, and it is among as many as there are
documents and one more. -/
theorem firstFree_nextKey (documents : Table Json.Members) (last : Nat) :
    FirstFree documents last (nextKey documents last) ∧
      nextKey documents last ≤ last + documents.size + 1 := by
  have hfind := find?_nextKey documents last
  rw [← List.range'_eq_map_range, List.find?_range'_eq_some] at hfind
  obtain ⟨hfree, hmem, hbefore⟩ := hfind
  rw [List.mem_range'_1] at hmem
  refine ⟨⟨by omega, by simpa using hfree, fun n hn hlt => ?_⟩, by omega⟩
  simpa using hbefore n (by omega) hlt

end FirstFree

/-! ## The search -/

theorem toString_add_one {last : UInt64} (h : last.toNat + 1 < UInt64.size) :
    toString (last + 1) = toString (last.toNat + 1) :=
  congrArg Nat.repr (toNat_add_one h)

/-- The search comes to the first free number, after a round for each number up to it. -/
theorem searchKey_eq_some_iff {documents : Table Json.Members} {last : UInt64}
    {drawn : DrawnKey} :
    searchKey documents last = some drawn ↔
      FirstFree documents last.toNat drawn.number.toNat ∧
        drawn.number.toNat = last.toNat + drawn.rounds := by
  fun_induction searchKey documents last generalizing drawn with
  | case1 last hroom htaken ih =>
      have hnext := toNat_add_one hroom
      rw [toString_add_one hroom] at htaken
      -- The rest of the search is for the same number and one round shorter.
      rw [firstFree_iff_of_taken htaken, ← hnext]
      constructor
      · intro h
        obtain ⟨rest, hrest, rfl⟩ := Option.map_eq_some_iff.1 h
        obtain ⟨hfirst, hcount⟩ := ih.1 hrest
        exact ⟨hfirst, by dsimp only; omega⟩
      · rintro ⟨hfirst, hcount⟩
        have hlater := hfirst.later
        have hrest : searchKey documents (last + 1) = some ⟨drawn.number, drawn.rounds - 1⟩ :=
          ih.2 ⟨hfirst, by dsimp only; omega⟩
        have hrounds : drawn.rounds - 1 + 1 = drawn.rounds := by omega
        rw [hrest, Option.map_some, hrounds]
  | case2 last hroom hfree =>
      have hnext := toNat_add_one hroom
      rw [toString_add_one hroom, Bool.not_eq_true] at hfree
      rw [firstFree_iff_of_free hfree, ← hnext, UInt64.toNat_inj]
      constructor
      · intro h
        obtain rfl := Option.some.inj h
        exact ⟨rfl, hnext⟩
      · rintro ⟨hnumber, hcount⟩
        have hrounds : drawn.rounds = 1 := by
          rw [hnumber, hnext] at hcount
          omega
        rw [← hnumber, ← hrounds]
  | case3 last hroom =>
      -- There is no number after the last one of 64 bits.
      have hfits := drawn.number.toNat_lt_size
      constructor
      · intro h
        cases h
      · rintro ⟨hfirst, _⟩
        have hlater := hfirst.later
        omega

/-- With room for one number more than there are documents, the search finds the number that a new
document is given, and it takes at most one round more than there are documents. -/
theorem searchKey_eq_nextKey {documents : Table Json.Members} {last : Nat}
    (hroom : last + documents.size + 1 < UInt64.size) :
    ∃ drawn, searchKey documents (.ofNat last) = some drawn ∧
      drawn.rounds ≤ documents.size + 1 ∧ drawn.number.toNat = nextKey documents last := by
  obtain ⟨hfirst, hle⟩ := firstFree_nextKey documents last
  have hlater := hfirst.later
  have hlast : (UInt64.ofNat last).toNat = last := UInt64.toNat_ofNat_of_lt' (by omega)
  have hnumber : (UInt64.ofNat (nextKey documents last)).toNat = nextKey documents last :=
    UInt64.toNat_ofNat_of_lt' (by omega)
  refine ⟨⟨.ofNat (nextKey documents last), nextKey documents last - last⟩, ?_, ?_, hnumber⟩
  · rw [searchKey_eq_some_iff, hlast, hnumber]
    exact ⟨hfirst, by dsimp only; omega⟩
  · dsimp only
    omega

/-! ## Documents without a key -/

variable {database : StoredDatabase} {stored : StoredCollection} {members : Json.Members}

theorem checkEdge_eq_ok
    (h : stored.type = .edge → hasHandle members "_from" = true ∧ hasHandle members "_to" = true) :
    checkEdge stored members = .ok () := by
  unfold checkEdge
  rw [if_neg]
  rintro ⟨hedge, hends⟩
  obtain ⟨hsource, htarget⟩ := h hedge
  simp [hsource, htarget] at hends

theorem createDocument_of_unkeyed (fresh : String) {name : String}
    (hunkeyed : Assoc.get? "_key" members = none)
    (hstored : database.collections.get? name = some stored)
    (hedge : checkEdge stored members = .ok ()) :
    let number := nextKey stored.documents database.lastKey
    let document := withIdentity members name (toString number) fresh
    database.createDocument fresh name (some (.object members)) =
      .ok ⟨⟨201, .object (identityMembers document)⟩,
        { database.putDocument name stored (toString number) document with
          lastKey := number }⟩ := by
  simp only [createDocument, documentBody, collection, hstored, hedge, chooseKey, hunkeyed, ok_bind]
  rfl

end StoredDatabase

namespace Server

open StoredDatabase

section

variable {server : Server} (fresh : String) {name collection : String} {request : Request}
  {database : StoredDatabase}

theorem handle_createDocument (hmethod : request.method = .post)
    (hpath : Http.parsePath? request.path = some (name, ["document", collection]))
    (hdatabase : server.databases.get? name = some database) {granted : Granted StoredDatabase}
    (hruling : database.createDocument fresh collection request.body = .ok granted) :
    server.handle fresh request =
      ⟨granted.response, { server with databases := server.databases.insert name granted.state },
        true⟩ := by
  simp only [handle, hpath, hdatabase, route, hmethod, hruling]
  rfl

/-- A document without a key is created in every collection that is there, as long as 64 bits hold
one number more than it has documents.  The search for a key stops after at most one round more
than there are documents, at a number that is the key of none of them.  The document is filed under
it, and all others stay as they are. -/
theorem handle_createDocument_of_unkeyed {members : Json.Members} {stored : StoredCollection}
    (hmethod : request.method = .post)
    (hpath : Http.parsePath? request.path = some (name, ["document", collection]))
    (hbody : request.body = some (.object members))
    (hunkeyed : Assoc.get? "_key" members = none)
    (hdatabase : server.databases.get? name = some database)
    (hstored : database.collections.get? collection = some stored)
    (hends : stored.type = .edge →
      hasHandle members "_from" = true ∧ hasHandle members "_to" = true)
    (hroom : database.lastKey + stored.documents.size + 1 < UInt64.size) :
    ∃ drawn,
      searchKey stored.documents (.ofNat database.lastKey) = some drawn ∧
      drawn.rounds ≤ stored.documents.size + 1 ∧
      let place : Place := ⟨name, collection, toString drawn.number⟩
      let document := withIdentity members collection place.key fresh
      let after := { database.putDocument collection stored place.key document with
        lastKey := drawn.number.toNat }
      server.documentAt? place = none ∧
      server.handle fresh request =
        ⟨⟨201, .object (identityMembers document)⟩,
          { server with databases := server.databases.insert name after }, true⟩ ∧
      server.Files (server.handle fresh request).server place document := by
  obtain ⟨drawn, hsearch, hrounds, hnumber⟩ := searchKey_eq_nextKey hroom
  have hkey : toString drawn.number = toString (nextKey stored.documents database.lastKey) :=
    congrArg Nat.repr hnumber
  have hruling := createDocument_of_unkeyed fresh hunkeyed hstored (checkEdge_eq_ok hends)
  rw [← hbody] at hruling
  have hhandle := handle_createDocument fresh hmethod hpath hdatabase hruling
  refine ⟨drawn, hsearch, hrounds, ?_⟩
  rw [hkey, hnumber]
  refine ⟨?_, hhandle, ?_⟩
  · rw [documentAt?, document?_of_database hdatabase, document?_of_collection hstored]
    exact get?_nextKey stored.documents database.lastKey
  · rw [hhandle]
    exact files_insert hdatabase (files_of_insert hstored rfl)

end

def cable : Json.Members := [("_from", .string "piers/east"), ("_to", .string "piers/west")]

/-- Cables under keys that clients asked for.  Two of them are the texts of the next numbers. -/
def cables : StoredCollection :=
  ⟨.edge, false, Table.ofList (["2", "north", "1"].map fun key =>
    (key, withIdentity cable "cables" key "_rev1")), []⟩

def seabed : StoredDatabase := ⟨Table.empty.insert "cables" cables, Table.empty, 0⟩

def withCables : Server :=
  { Server.new [] with databases := Table.empty.insert "_system" seabed }

def layCable : Request :=
  ⟨.post, "/_db/_system/_api/document/cables", [], some (.object cable)⟩

/-- The search passes over the two numbers that clients took and stops at the third. -/
theorem handle_createDocument_of_unkeyed_cables :
    searchKey cables.documents 0 = some ⟨3, 3⟩ ∧
    withCables.documentAt? ⟨"_system", "cables", "3"⟩ = none ∧
    (withCables.handle "_rev2" layCable).response.status = 201 ∧
    withCables.Files (withCables.handle "_rev2" layCable).server ⟨"_system", "cables", "3"⟩
      (withIdentity cable "cables" "3" "_rev2") := by
  have hpath : Http.parsePath? layCable.path = some ("_system", ["document", "cables"]) := by
    decide +kernel
  have hends : hasHandle cable "_from" = true ∧ hasHandle cable "_to" = true := by decide +kernel
  have hdatabase : withCables.databases.get? "_system" = some seabed := rfl
  have hstored : seabed.collections.get? "cables" = some cables := rfl
  have hroom : seabed.lastKey + cables.documents.size + 1 < UInt64.size := by decide +kernel
  have hthird : searchKey cables.documents 0 = some ⟨3, 3⟩ := by decide +kernel
  obtain ⟨drawn, hsearch, _, hfree, hhandle, hfiles⟩ :=
    handle_createDocument_of_unkeyed "_rev2" rfl hpath rfl rfl hdatabase hstored
      (fun _ => hends) hroom
  obtain rfl := Option.some.inj (hthird.symm.trans hsearch)
  exact ⟨hthird, hfree, by rw [hhandle], hfiles⟩

end Server

end DocGraph
