import DocGraph.Proofs.Client.Batch
import DocGraph.Proofs.Server.Handle
/-!
# What the cursor operations do

Opening a cursor takes the next scripted result and hands out its first rows; what remains is filed
under a fresh number, and under this number alone the later batches are taken from it.
-/

namespace DocGraph

open Outcome

namespace Server

/-! ## Opening -/

/-- The batch that opens a cursor; a number comes with it when rows remain. -/
def firstBatch (server : Server) (size : Nat) (count? fullCount? : Option UInt64) : Batch where
  rows := (server.scriptedRows 0).take size
  hasMore := !((server.scriptedRows 0).drop size).isEmpty
  id := server.openedId? size
  count := count?
  fullCount := fullCount?

def firstMembers (batch : Batch) : Json.Members :=
  [("result", .array batch.rows), ("hasMore", .bool batch.hasMore),
    ("extra", .ofMembers
      [("stats", .ofMembers (batch.fullCount.toList.map (("fullCount", Json.ofUInt64 ·))))])]
    ++ batch.count.toList.map (("count", Json.ofUInt64 ·))
    ++ batch.id.toList.map (("id", Json.string ·))

theorem read_firstMembers (batch : Batch) :
    Batch.read (Json.ofMembers (firstMembers batch)) = some batch := by
  obtain ⟨rows, hasMore, id?, count?, fullCount?⟩ := batch
  refine Batch.read_of_parts ?_ rfl rfl ?_ ?_ ?_
  · cases id? <;> cases count? <;> simp [firstMembers]
  · cases id? <;> cases count? <;> rfl
  · cases id? <;> cases count? <;> rfl
  · cases fullCount? with
    | none => exact Batch.readExtra_empty
    | some n => exact Batch.readExtra_fullCount n

theorem openCursor_eq (server : Server) {database : StoredDatabase} {members : Json.Members}
    (hquery : (queryText? members).isSome) (hbound : collectionsExist database members = true) :
    ∃ count? fullCount?, server.openCursor database (some (.object members)) =
      .ok ⟨⟨201, .ofMembers (firstMembers
          (server.firstBatch (batchSize members) count? fullCount?))⟩,
        server.opened (batchSize members)⟩ := by
  have htext : (queryText? members).isNone = false := Option.isNone_eq_false_iff.2 hquery
  let result := server.scripted.head?.getD ⟨[], none⟩
  let total := UInt64.ofNat (server.scriptedRows 0).length
  refine ⟨if isTrue (Assoc.get? "count" members) then some total else none,
    if isTrue ((Assoc.get? "options" members).bind (Json.member? "fullCount")) then
      some (result.fullCount.getD total) else none, ?_⟩
  unfold openCursor
  simp only [Option.bind_some, Json.asObject?, htext, hbound, Bool.not_true, Bool.false_eq_true,
    if_false]
  rw [← scriptedRows_zero]
  cases isTrue (Assoc.get? "count" members) <;>
    cases isTrue ((Assoc.get? "options" members).bind (Json.member? "fullCount")) <;>
    cases hrest : ((server.scriptedRows 0).drop (batchSize members)).isEmpty <;>
    simp [firstMembers, firstBatch, openedId?, opened, refile, hrest, total, result, grant]

/-! ## Fetching and closing -/

theorem nextBatch_eq {server : Server} {id : String} {rows : List Json} {size : Nat}
    (h : server.cursors.get? id = some ⟨rows, size⟩) :
    ∃ body, server.nextBatch id = .ok ⟨⟨200, body⟩, server.refile id (rows.drop size) size⟩ ∧
      Batch.read body =
        some ⟨rows.take size, !(rows.drop size).isEmpty, some id, none, none⟩ := by
  unfold nextBatch
  rw [h]
  refine ⟨_, rfl, Batch.read_ofMembers (by simp) rfl rfl rfl rfl ?_⟩
  intro extra hextra
  simp [Assoc.get?] at hextra

theorem closeCursor_eq {server : Server} {id : String} {cursor : StoredCursor}
    (h : server.cursors.get? id = some cursor) :
    ∃ body, server.closeCursor id = .ok ⟨⟨202, body⟩, server.refile id [] 0⟩ := by
  unfold closeCursor
  rw [h]
  exact ⟨_, rfl⟩

/-! ## Routes -/

section Routes

variable {server : Server} {name : String} {database : StoredDatabase}

theorem handle_of_route (hdatabase : server.databases.get? name = some database) {fresh : String}
    {request : Request} {segments : List String} {outcome : Outcome}
    (hpath : request.path = Http.apiPath name segments)
    (hroute : server.route fresh name database request segments = outcome) :
    server.handle fresh request = outcome := by
  have hhandle := handle_apiPath server fresh name segments hpath
  rw [hdatabase] at hhandle
  exact hhandle.trans hroute

theorem handle_openCursor (hdatabase : server.databases.get? name = some database)
    (fresh : String) (body : Option Json) :
    server.handle fresh ⟨.post, Http.apiPath name ["cursor"], [], body⟩ =
      server.settle (server.openCursor database body) :=
  handle_of_route hdatabase rfl rfl

theorem handle_nextBatch (hdatabase : server.databases.get? name = some database)
    (fresh id : String) :
    server.handle fresh (.plain .put (Http.apiPath name ["cursor", id])) =
      server.settle (server.nextBatch id) :=
  handle_of_route hdatabase rfl rfl

theorem handle_closeCursor (hdatabase : server.databases.get? name = some database)
    (fresh id : String) :
    server.handle fresh (.plain .delete (Http.apiPath name ["cursor", id])) =
      server.settle (server.closeCursor id) :=
  handle_of_route hdatabase rfl rfl

end Routes

/-! ## Numbers in use -/

theorem toString_injective {m n : Nat} (h : toString m = toString n) : m = n :=
  Nat.repr_injective h

def Numbered (server : Server) : Prop :=
  ∀ id, (server.cursors.get? id).isSome → ∃ n ≤ server.lastCursor, id = toString n

theorem Numbered.get?_eq_none {server : Server} (h : server.Numbered) {n : Nat}
    (hn : server.lastCursor < n) : server.cursors.get? (toString n) = none := by
  by_contra hstored
  obtain ⟨m, hm, heq⟩ := h _ (Option.isSome_iff_ne_none.2 hstored)
  have hsame := toString_injective heq
  omega

theorem Numbered.of_eq {server after : Server} (h : server.Numbered)
    (hcursors : after.cursors = server.cursors) (hlast : after.lastCursor = server.lastCursor) :
    after.Numbered := by
  intro id hid
  rw [hcursors] at hid
  rw [hlast]
  exact h id hid

theorem Numbered.refile {server : Server} (h : server.Numbered) {id : String}
    (hid : ∃ n ≤ server.lastCursor, id = toString n) (rows : List Json) (size : Nat) :
    (server.refile id rows size).Numbered := by
  intro other hother
  by_cases heq : id = other
  · exact heq ▸ hid
  · rw [get?_refile, if_neg heq] at hother
    exact h other hother

theorem Numbered.move {server after : Server} (h : server.Numbered)
    (hmove : server.CursorMove after) : after.Numbered := by
  cases hmove with
  | stay => exact h
  | @query size =>
      unfold opened
      dsimp only
      split
      · exact h.of_eq rfl rfl
      · refine Numbered.refile (fun id hid => ?_) ⟨_, Nat.le_refl _, rfl⟩ _ _
        obtain ⟨n, hn, hid⟩ := h id hid
        exact ⟨n, Nat.le_succ_of_le hn, hid⟩
  | fetch hcursor => exact h.refile (h _ (by simp [hcursor])) _ _
  | close hcursor => exact h.refile (h _ (by simp [hcursor])) _ _

theorem Numbered.ends {server : Server} (h : server.Numbered) {fresh : String}
    {outcome : Outcome} (hends : server.Ends fresh outcome) : outcome.server.Numbered := by
  cases hends with
  | refuse => exact h
  | write | amend => exact h.of_eq rfl rfl
  | move _ hmove => exact h.move hmove

/-- Whatever is asked, no cursor is filed under a number that is still to be drawn. -/
theorem Numbered.handle {server : Server} (h : server.Numbered) (fresh : String)
    (request : Request) : (server.handle fresh request).server.Numbered :=
  h.ends (server.handle_ends fresh request)

end Server

end DocGraph
