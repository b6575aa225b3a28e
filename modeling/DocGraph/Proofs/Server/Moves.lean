import DocGraph.Proofs.Assoc
import DocGraph.Proofs.Outcome
import DocGraph.Server.Cursors
import Mathlib.Logic.Basic
/-!
# What the cursor operations leave behind

Opening a cursor takes the next scripted result and hands out its first rows; what remains is filed
under a fresh number, and under this number alone the later batches are taken from it.
-/

namespace DocGraph

open Outcome

theorem Json.member?_ofMembers {members : Json.Members} (h : (members.map Prod.fst).Nodup)
    (name : String) : (Json.ofMembers members).member? name = Assoc.get? name members :=
  Assoc.get?_ofList h name

namespace Server

/-- What is scripted for the query that is `turn` queries away. -/
def scriptedRows (server : Server) (turn : Nat) : List Json :=
  (server.scripted[turn]?.map (·.rows)).getD []

theorem scriptedRows_zero (server : Server) :
    server.scriptedRows 0 = (server.scripted.head?.getD ⟨[], none⟩).rows := by
  unfold scriptedRows
  cases server.scripted <;> rfl

/-- The server with the remaining rows of one cursor filed anew; a cursor without rows is none. -/
def refile (server : Server) (id : String) (rows : List Json) (size : Nat) : Server :=
  { server with
    cursors := if rows.isEmpty then server.cursors.erase id
      else server.cursors.insert id ⟨rows, size⟩ }

def remaining (rows : List Json) (size : Nat) : Option StoredCursor :=
  if rows.isEmpty then none else some ⟨rows, size⟩

theorem get?_refile (server : Server) (id other : String) (rows : List Json) (size : Nat) :
    (server.refile id rows size).cursors.get? other =
      if id = other then remaining rows size else server.cursors.get? other := by
  unfold refile remaining
  cases rows with
  | nil => simp [Table.get?_erase]
  | cons row rows => simp [Table.get?_insert]

/-- The server after a query was answered: the rows beyond the first batch are filed under a
number that was not used before. -/
def opened (server : Server) (size : Nat) : Server :=
  let server' := { server with scripted := server.scripted.tail }
  if ((server.scriptedRows 0).drop size).isEmpty then server'
  else
    { server' with lastCursor := server.lastCursor + 1 }.refile
      (toString (server.lastCursor + 1)) ((server.scriptedRows 0).drop size) size

section Opened

variable (server : Server) (size : Nat)

theorem opened_scripted : (server.opened size).scripted = server.scripted.tail := by
  unfold opened
  split <;> rfl

theorem opened_databases : (server.opened size).databases = server.databases := by
  unfold opened
  split <;> rfl

theorem opened_lastCursor :
    (server.opened size).lastCursor =
      if ((server.scriptedRows 0).drop size).isEmpty then server.lastCursor
      else server.lastCursor + 1 := by
  unfold opened
  split <;> rfl

theorem get?_opened (id : String) :
    (server.opened size).cursors.get? id =
      if !((server.scriptedRows 0).drop size).isEmpty ∧ toString (server.lastCursor + 1) = id then
        remaining ((server.scriptedRows 0).drop size) size
      else server.cursors.get? id := by
  unfold opened
  split
  · rename_i hempty
    rw [if_neg fun h => by simp [hempty] at h]
  · rename_i hmore
    dsimp only
    rw [get?_refile]
    by_cases hid : toString (server.lastCursor + 1) = id
    · rw [if_pos hid, if_pos ⟨by simpa using hmore, hid⟩]
    · rw [if_neg hid, if_neg fun h => hid h.2]

end Opened

def openedId? (server : Server) (size : Nat) : Option String :=
  if ((server.scriptedRows 0).drop size).isEmpty then none
  else some (toString (server.lastCursor + 1))

/-- What becomes of the cursors: nothing, or one is opened, moved on or closed. -/
inductive CursorMove (server : Server) : Server → Prop where
  | stay : CursorMove server server
  | query {size : Nat} (hsize : 0 < size) : CursorMove server (server.opened size)
  | fetch {id : String} {cursor : StoredCursor} (hcursor : server.cursors.get? id = some cursor) :
      CursorMove server
        (server.refile id (cursor.rows.drop cursor.batchSize) cursor.batchSize)
  | close {id : String} {cursor : StoredCursor} (hcursor : server.cursors.get? id = some cursor) :
      CursorMove server (server.refile id [] 0)

theorem CursorMove.databases {server after : Server} (h : server.CursorMove after) :
    after.databases = server.databases := by
  cases h with
  | query => exact opened_databases ..
  | stay | fetch | close => rfl

/-! ## What is granted -/

theorem batchSize_pos (members : Json.Members) : 0 < batchSize members := by
  unfold batchSize
  split
  · exact Nat.lt_of_lt_of_le Nat.zero_lt_one (Nat.le_max_right _ _)
  · decide

section Granted

variable {server : Server} {granted : Granted Server}

theorem openCursor_granted {database : StoredDatabase} {body : Option Json}
    (h : server.openCursor database body = .ok granted) :
    ∃ members, body = some (.object members) ∧ granted.response.status = 201 ∧
      granted.response.body.member? "id" =
        (server.openedId? (batchSize members)).map Json.string ∧
      granted.state = server.opened (batchSize members) := by
  simp only [openCursor, throw_eq_error, error_bind] at h
  split at h
  · simp at h
  · rename_i members hmembers
    have hbody : body = some (.object members) := by
      obtain ⟨json, rfl, hjson⟩ := Option.bind_eq_some_iff.1 hmembers
      cases json with
      | object others => simpa [Json.asObject?] using hjson
      | _ => simp [Json.asObject?] at hjson
    refine ⟨members, hbody, ?_⟩
    split at h
    · simp at h
    · split at h
      · simp at h
      · simp only [openedId?, opened, scriptedRows_zero]
        split at h
        · rename_i hrest
          obtain rfl := Except.ok.inj h
          refine ⟨rfl, ?_, ?_⟩
          · rw [if_pos hrest]
            split <;> split <;> exact Json.member?_ofMembers (by simp) "id"
          · rw [if_pos hrest]
        · rename_i hrest
          obtain rfl := Except.ok.inj h
          refine ⟨rfl, ?_, ?_⟩
          · rw [if_neg hrest]
            split <;> split <;> exact Json.member?_ofMembers (by simp) "id"
          · rw [if_neg hrest]
            simp [refile, hrest]

theorem openCursor_moves {database : StoredDatabase} {body : Option Json}
    (h : server.openCursor database body = .ok granted) :
    granted.response.isSuccess = true ∧ server.CursorMove granted.state := by
  obtain ⟨members, _, hstatus, _, hstate⟩ := openCursor_granted h
  exact ⟨by simp [Response.isSuccess, hstatus], hstate ▸ .query (batchSize_pos members)⟩

theorem nextBatch_moves {id : String} (h : server.nextBatch id = .ok granted) :
    granted.response.isSuccess = true ∧ server.CursorMove granted.state := by
  unfold nextBatch at h
  split at h
  · simp at h
  · rename_i cursor hcursor
    obtain rfl := Except.ok.inj h
    exact ⟨rfl, .fetch hcursor⟩

theorem closeCursor_moves {id : String} (h : server.closeCursor id = .ok granted) :
    granted.response.isSuccess = true ∧ server.CursorMove granted.state := by
  unfold closeCursor at h
  split at h
  · simp at h
  · rename_i cursor hcursor
    obtain rfl := Except.ok.inj h
    exact ⟨rfl, .close hcursor⟩

theorem parseQuery_granted {σ : Type} {state : σ} {granted : Granted σ} {body : Option Json}
    (h : parseQuery body state = .ok granted) : ∃ body, granted = ⟨⟨200, body⟩, state⟩ := by
  simp only [parseQuery] at h
  split at h
  · exact ⟨_, (Except.ok.inj h).symm⟩
  · simp at h

theorem parseQuery_moves {body : Option Json} (h : parseQuery body server = .ok granted) :
    granted.response.isSuccess = true ∧ server.CursorMove granted.state := by
  obtain ⟨_, rfl⟩ := parseQuery_granted h
  exact ⟨rfl, .stay⟩

end Granted

end Server

end DocGraph
