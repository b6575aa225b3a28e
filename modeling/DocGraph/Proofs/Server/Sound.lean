import DocGraph.Proofs.Server.Cursors
/-!
# What holds of every server

Whatever requests a server answers and whatever results are scripted for it, its documents say
where they lie, its edges have two ends, and its cursors have rows left.  A number that was drawn
for a cursor stands for this cursor only, and for none once the cursor is gone.
-/

namespace DocGraph

open Outcome StoredDatabase

/-! ## Documents -/

/-- An attribute of a document names another one: a collection and a key around a slash. -/
def NamesDocument (document : Json.Members) (name : String) : Prop :=
  ∃ collection key, Assoc.get? name document = some (.string (documentHandle collection key)) ∧
    collection ≠ "" ∧ '/' ∉ collection.toList ∧ key ≠ ""

theorem namesDocument_of_hasHandle {document : Json.Members} {name : String}
    (h : hasHandle document name = true) : NamesDocument document name := by
  unfold hasHandle at h
  split at h
  · rename_i handle hname
    obtain ⟨json, hjson, hstring⟩ := Option.bind_eq_some_iff.1 hname
    obtain rfl := Json.eq_string_of_asString? hstring
    unfold isDocumentHandle at h
    split at h
    · rename_i collection key hcut
      obtain ⟨rfl, hslash⟩ := cut?_documentHandle_iff.1 hcut
      have hparts : collection ≠ "" ∧ key ≠ "" := by simpa using h
      exact ⟨collection, key, hjson, hparts.1, hslash, hparts.2⟩
    · simp at h
  · simp at h

theorem hasHandle_of_checkEdge {stored : StoredCollection} {members : Json.Members}
    (h : checkEdge stored members = .ok ()) (hedge : stored.type = .edge) :
    hasHandle members "_from" = true ∧ hasHandle members "_to" = true := by
  unfold checkEdge at h
  split at h
  · simp at h
  · rename_i hends
    simpa [hedge] using hends

structure IsLaid (name : String) (type : CollectionType) (key : String) (document : Json.Members) :
    Prop where
  named : key ≠ ""
  identified : ∃ rev, Identified document (documentHandle name key) key rev
  connects : type.number = 3 → NamesDocument document "_from" ∧ NamesDocument document "_to"

theorem isLaid_withIdentity {name key fresh : String} {stored : StoredCollection}
    {members : Json.Members} (hkey : key ≠ "") (hedge : checkEdge stored members = .ok ()) :
    IsLaid name stored.type key (withIdentity members name key fresh) := by
  refine ⟨hkey, ⟨fresh, identified_withIdentity members name key fresh⟩, fun hnumber => ?_⟩
  have htype : stored.type = .edge := by
    cases htype : stored.type with
    | document => simp [htype, CollectionType.number] at hnumber
    | edge => rfl
  obtain ⟨hsource, htarget⟩ := hasHandle_of_checkEdge hedge htype
  -- The identity is put under other names, so the ends are those of the body that was checked.
  unfold NamesDocument
  rw [get?_withIdentity_of_not_mem members name key fresh (by decide),
    get?_withIdentity_of_not_mem members name key fresh (by decide)]
  exact ⟨namesDocument_of_hasHandle hsource, namesDocument_of_hasHandle htarget⟩

/-! ## Collections -/

structure StoredCollection.Sound (name : String) (stored : StoredCollection) : Prop where
  typed : stored.type.number = 2 ∨ stored.type.number = 3
  laid : ∀ key document, stored.documents.get? key = some document →
    IsLaid name stored.type key document

namespace StoredCollection.Sound

variable {name : String} {stored : StoredCollection}

theorem empty (name : String) (type : CollectionType) (isSystem : Bool) :
    (StoredCollection.empty type isSystem).Sound name := by
  refine ⟨?_, fun key document hdocument => ?_⟩
  · cases type with
    | document => exact Or.inl rfl
    | edge => exact Or.inr rfl
  · simp [StoredCollection.empty] at hdocument

theorem file (h : stored.Sound name) {key : String} {document : Json.Members}
    (hdocument : IsLaid name stored.type key document) :
    { stored with documents := stored.documents.insert key document }.Sound name := by
  refine ⟨h.typed, fun other found hfound => ?_⟩
  rw [Table.get?_insert] at hfound
  split at hfound
  · rename_i hother
    exact hother ▸ Option.some.inj hfound ▸ hdocument
  · exact h.laid other found hfound

theorem remove (h : stored.Sound name) (key : String) :
    { stored with documents := stored.documents.erase key }.Sound name := by
  refine ⟨h.typed, fun other found hfound => ?_⟩
  rw [Table.get?_erase] at hfound
  split at hfound
  · simp at hfound
  · exact h.laid other found hfound

theorem reindex (h : stored.Sound name) (indexes : List Json.Members) :
    StoredCollection.Sound name { stored with indexes } :=
  ⟨h.typed, h.laid⟩

end StoredCollection.Sound

/-! ## Databases -/

def StoredDatabase.Sound (database : StoredDatabase) : Prop :=
  ∀ name stored, database.collections.get? name = some stored → stored.Sound name

namespace StoredDatabase.Sound

variable {database after : StoredDatabase} {name : String} {stored : StoredCollection}

theorem new : StoredDatabase.new.Sound := by
  intro name stored hstored
  rw [StoredDatabase.new, Table.get?_insert] at hstored
  split at hstored
  · exact Option.some.inj hstored ▸ .empty name _ _
  · simp at hstored

theorem insert (h : database.Sound) (hstored : stored.Sound name)
    (hafter : after.collections = database.collections.insert name stored) : after.Sound := by
  intro other found hfound
  rw [hafter, Table.get?_insert] at hfound
  split at hfound
  · rename_i hother
    exact hother ▸ Option.some.inj hfound ▸ hstored
  · exact h other found hfound

theorem erase (h : database.Sound) (name : String) :
    StoredDatabase.Sound { database with collections := database.collections.erase name } := by
  intro other found hfound
  rw [Table.get?_erase] at hfound
  split at hfound
  · simp at hfound
  · exact h other found hfound

theorem write {fresh : String} (h : database.Sound) (hwrite : Write fresh database after) :
    after.Sound := by
  cases hwrite with
  | create hstored hedge hkey =>
      obtain ⟨_, hne, _⟩ := chooseKey_eq_ok hkey
      exact h.insert ((h _ _ hstored).file (isLaid_withIdentity hne hedge)) rfl
  | replace hstored hedge hcurrent =>
      have hne := ((h _ _ hstored).laid _ _ hcurrent).named
      exact h.insert ((h _ _ hstored).file (isLaid_withIdentity hne hedge)) rfl

theorem amend (h : database.Sound) (hamend : Amendment database after) : after.Sound := by
  cases hamend with
  | remove hstored key => exact h.insert ((h _ _ hstored).remove key) rfl
  | add _ type isSystem => exact h.insert (.empty _ type isSystem) rfl
  | drop name => exact h.erase name
  | index hstored => exact h.insert ((h _ _ hstored).reindex _) rfl
  | graphs => exact h

theorem amendments (h : database.Sound) (hamendments : Amendments database after) :
    after.Sound := by
  induction hamendments with
  | refl => exact h
  | tail _ hlast ih => exact ih.amend hlast

end StoredDatabase.Sound

/-! ## Servers -/

namespace Server

/-- What holds of a server: its databases are sound, and each of its cursors has rows left and is
filed under a number that was drawn. -/
structure Sound (server : Server) : Prop where
  databases : ∀ name database, server.databases.get? name = some database → database.Sound
  pending : ∀ id cursor, server.cursors.get? id = some cursor →
    cursor.rows ≠ [] ∧ 1 ≤ cursor.batchSize
  numbered : server.Numbered

variable {server after : Server}

theorem eq_some_of_remaining {rows : List Json} {size : Nat} {cursor : StoredCursor}
    (h : remaining rows size = some cursor) : rows ≠ [] ∧ cursor = ⟨rows, size⟩ := by
  unfold remaining at h
  split at h
  · simp at h
  · rename_i hrows
    exact ⟨by simpa using hrows, (Option.some.inj h).symm⟩

theorem Sound.new (databases : List String) : (Server.new databases).Sound := by
  refine ⟨fun name database hdatabase => ?_, fun id cursor hcursor => ?_, fun id hid => ?_⟩
  · exact eq_new_of_get?_new hdatabase ▸ .new
  · simp [Server.new] at hcursor
  · simp [Server.new] at hid

theorem Sound.insert (h : server.Sound) {database : StoredDatabase} (hdatabase : database.Sound)
    (name : String) :
    Server.Sound { server with databases := server.databases.insert name database } := by
  refine ⟨fun other found hfound => ?_, h.pending, h.numbered.of_eq rfl rfl⟩
  rw [Table.get?_insert] at hfound
  split at hfound
  · exact Option.some.inj hfound ▸ hdatabase
  · exact h.databases other found hfound

/-- What a move of the cursors files anew has rows, and batches of at least one. -/
theorem Sound.pending_move (h : server.Sound) (hmove : server.CursorMove after) (id : String)
    (cursor : StoredCursor) (hcursor : after.cursors.get? id = some cursor) :
    cursor.rows ≠ [] ∧ 1 ≤ cursor.batchSize := by
  cases hmove with
  | stay => exact h.pending id cursor hcursor
  | query hsize =>
      rw [get?_opened] at hcursor
      split at hcursor
      · obtain ⟨hrows, rfl⟩ := eq_some_of_remaining hcursor
        exact ⟨hrows, hsize⟩
      · exact h.pending id cursor hcursor
  | fetch hfetched =>
      rw [get?_refile] at hcursor
      split at hcursor
      · obtain ⟨hrows, rfl⟩ := eq_some_of_remaining hcursor
        exact ⟨hrows, (h.pending _ _ hfetched).2⟩
      · exact h.pending id cursor hcursor
  | close =>
      rw [get?_refile] at hcursor
      split at hcursor
      · simp [remaining] at hcursor
      · exact h.pending id cursor hcursor

theorem Sound.ends (h : server.Sound) {fresh : String} {outcome : Outcome}
    (hends : server.Ends fresh outcome) : outcome.server.Sound := by
  cases hends with
  | refuse => exact h
  | write hdatabase _ hwrite => exact h.insert ((h.databases _ _ hdatabase).write hwrite) _
  | amend hdatabase _ hamendments =>
      exact h.insert ((h.databases _ _ hdatabase).amendments hamendments) _
  | move _ hmove =>
      refine ⟨fun name database hdatabase => ?_, h.pending_move hmove, h.numbered.move hmove⟩
      exact h.databases name database (hmove.databases ▸ hdatabase)

/-! ## Numbers of cursors -/

/-- A number that was drawn stands for one cursor: later on the cursor under it has some last rows
of those it had, and when it is gone there is none. -/
structure Continues (server after : Server) : Prop where
  drawn : server.lastCursor ≤ after.lastCursor
  same : ∀ n ≤ server.lastCursor, ∀ cursor, after.cursors.get? (toString n) = some cursor →
    ∃ earlier, server.cursors.get? (toString n) = some earlier ∧
      cursor.rows <:+ earlier.rows ∧ cursor.batchSize = earlier.batchSize

namespace Continues

theorem of_eq (hcursors : after.cursors = server.cursors)
    (hlast : after.lastCursor = server.lastCursor) : server.Continues after := by
  refine ⟨hlast ▸ Nat.le_refl _, fun n _ cursor hcursor => ?_⟩
  exact ⟨cursor, hcursors ▸ hcursor, List.suffix_refl _, rfl⟩

theorem trans {last : Server} (h : server.Continues after) (h' : after.Continues last) :
    server.Continues last := by
  refine ⟨Nat.le_trans h.drawn h'.drawn, fun n hn cursor hcursor => ?_⟩
  obtain ⟨between, hbetween, hrows, hsize⟩ := h'.same n (Nat.le_trans hn h.drawn) cursor hcursor
  obtain ⟨earlier, hearlier, hrows', hsize'⟩ := h.same n hn between hbetween
  exact ⟨earlier, hearlier, hrows.trans hrows', hsize.trans hsize'⟩

/-- Filing the last rows of a cursor anew, or none of them. -/
theorem refile {id : String} {cursor : StoredCursor} (hid : server.cursors.get? id = some cursor)
    {rows : List Json} (hrows : rows <:+ cursor.rows) {size : Nat}
    (hsize : rows ≠ [] → size = cursor.batchSize) :
    server.Continues (server.refile id rows size) := by
  refine ⟨Nat.le_refl _, fun n _ found hfound => ?_⟩
  rw [get?_refile] at hfound
  split at hfound
  · rename_i heq
    obtain ⟨hne, rfl⟩ := eq_some_of_remaining hfound
    exact ⟨cursor, heq ▸ hid, hrows, hsize hne⟩
  · exact ⟨found, hfound, List.suffix_refl _, rfl⟩

theorem opened (server : Server) (size : Nat) : server.Continues (server.opened size) := by
  refine ⟨?_, fun n hn found hfound => ?_⟩
  · rw [opened_lastCursor]
    split <;> omega
  · have hne : toString (server.lastCursor + 1) ≠ toString n := by
      intro heq
      have hsame := toString_injective heq
      omega
    rw [get?_opened, if_neg fun h => hne h.2] at hfound
    exact ⟨found, hfound, List.suffix_refl _, rfl⟩

theorem move (hmove : server.CursorMove after) : server.Continues after := by
  cases hmove with
  | stay => exact of_eq rfl rfl
  | query => exact opened server _
  | fetch hcursor => exact refile hcursor (List.drop_suffix _ _) fun _ => rfl
  | close hcursor => exact refile hcursor List.nil_suffix fun h => absurd rfl h

theorem ends {fresh : String} {outcome : Outcome} (hends : server.Ends fresh outcome) :
    server.Continues outcome.server := by
  cases hends with
  | refuse | write | amend => exact of_eq rfl rfl
  | move _ hmove => exact move hmove

end Continues

theorem drawn_of_opening {fresh name id : String} {query : List (String × String)}
    {body : Option Json} {outcome : Outcome}
    (houtcome : server.handle fresh ⟨.post, Http.apiPath name ["cursor"], query, body⟩ = outcome)
    (hsuccess : outcome.response.isSuccess = true)
    (hid : outcome.response.body.member? "id" = some (.string id)) :
    outcome.server.lastCursor = server.lastCursor + 1 ∧
      id = toString (server.lastCursor + 1) := by
  rw [handle_apiPath server fresh name ["cursor"] rfl] at houtcome
  cases hdatabase : server.databases.get? name with
  | none =>
      simp only [hdatabase] at houtcome
      rw [← houtcome] at hsuccess
      simp [settle, Refusal.isSuccess_response] at hsuccess
  | some database =>
      simp only [hdatabase] at houtcome
      obtain rfl : server.settle (server.openCursor database body) = outcome := houtcome
      cases hruling : server.openCursor database body with
      | error refusal =>
          rw [hruling] at hsuccess
          simp [settle, Refusal.isSuccess_response] at hsuccess
      | ok granted =>
          obtain ⟨members, _, _, hanswer, hstate⟩ := openCursor_granted hruling
          rw [hruling] at hid
          have hopened := hanswer.symm.trans hid
          obtain ⟨number, hnumber, heq⟩ := Option.map_eq_some_iff.1 hopened
          obtain rfl := Json.string.inj heq
          show granted.state.lastCursor = _ ∧ _
          rw [hstate]
          unfold openedId? at hnumber
          unfold Server.opened
          split at hnumber
          · simp at hnumber
          · rename_i hrest
            exact ⟨by simp [hrest, Server.refile], (Option.some.inj hnumber).symm⟩

/-! ## Runs -/

/-- What happens to a server: it is asked something, with the revision that a write would be given,
or a result is scripted for a query to come. -/
inductive Event where
  | request (fresh : String) (request : Request)
  | script (rows : List Json) (fullCount : Option UInt64)

def play (server : Server) : Event → Server
  | .request fresh request => (server.handle fresh request).server
  | .script rows fullCount => server.script rows fullCount

def run (server : Server) (events : List Event) : Server := events.foldl play server

theorem Sound.play (h : server.Sound) (event : Event) : (server.play event).Sound := by
  cases event with
  | request fresh request => exact h.ends (server.handle_ends fresh request)
  | script rows fullCount => exact ⟨h.databases, h.pending, h.numbered.of_eq rfl rfl⟩

theorem Sound.run (h : server.Sound) (events : List Event) : (server.run events).Sound := by
  induction events generalizing server with
  | nil => exact h
  | cons event events ih => exact ih (h.play event)

theorem Continues.play (server : Server) (event : Event) :
    server.Continues (server.play event) := by
  cases event with
  | request fresh request => exact .ends (server.handle_ends fresh request)
  | script rows fullCount => exact .of_eq rfl rfl

theorem Continues.run (server : Server) (events : List Event) :
    server.Continues (server.run events) := by
  induction events generalizing server with
  | nil => exact .of_eq rfl rfl
  | cons event events ih => exact (Continues.play server event).trans (ih _)

/-- Whatever happens to a server, it stays sound, and no number of a cursor is used again: what was
drawn stands for one cursor for good, and the answer to a query brings a number that was not
drawn. -/
theorem sound_run (databases : List String) (events : List Event) :
    let server := (Server.new databases).run events
    server.Sound ∧ (∀ later, server.Continues (server.run later)) ∧
    ∀ fresh name query body outcome id,
      server.handle fresh ⟨.post, Http.apiPath name ["cursor"], query, body⟩ = outcome →
      outcome.response.isSuccess = true →
      outcome.response.body.member? "id" = some (.string id) →
      outcome.server.lastCursor = server.lastCursor + 1 ∧
        id = toString (server.lastCursor + 1) :=
  ⟨(Sound.new databases).run events, Continues.run _, fun _ _ _ _ _ _ => drawn_of_opening⟩

end Server

end DocGraph
