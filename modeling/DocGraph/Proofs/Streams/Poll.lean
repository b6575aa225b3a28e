import DocGraph.Client.Database
import DocGraph.Proofs.Aql.Compile
import DocGraph.Proofs.Server.Cursors
import DocGraph.Proofs.World.Basic
/-!
# One poll of a cursor

A cursor that was opened stands for the rows that it has buffered and those that the server keeps
for it.  A poll hands out the first of these rows, and asks for a batch only if none is buffered; as
a batch is never empty while rows remain, it asks at most once.
-/

namespace DocGraph

open Outcome

variable {draw : Nat → String}

/-! ## What a cursor stands for -/

namespace Cursor

variable {α : Type}

def expected (decode : Json → Except Error α) : Option Json → Poll α
  | some row => .item (decode row)
  | none => .finished

/-- An opened cursor for which the server keeps some rows, under the given identifier if it ever
kept any. -/
structure Stands (cursor : Cursor α) (rest : List Json) (filed? : Option String) : Prop where
  sent : cursor.initial = none
  more : cursor.hasMore = !rest.isEmpty
  id : cursor.id = if rest.isEmpty then none else filed?
  filed : rest ≠ [] → filed?.isSome
  done : cursor.isDone = true → cursor.rows = [] ∧ rest = []

/-- A poll has handed out the first of the rows that a cursor stands for. -/
structure Polled (cursor : Cursor α) (rest : List Json) (filed? : Option String)
    (poll : Poll α) (after : Cursor α) (rest' : List Json) : Prop where
  stands : after.Stands rest' filed?
  decode : after.decode = cursor.decode
  database : after.database = cursor.database
  brings : poll = expected cursor.decode (cursor.rows ++ rest).head?
  leaves : after.rows ++ rest' = (cursor.rows ++ rest).tail

theorem next_of_buffered {cursor : Cursor α} {rest : List Json} {filed? : Option String}
    (h : cursor.Stands rest filed?) (hready : cursor.rows ≠ [] ∨ rest = []) (patience : Nat) :
    ∃ poll after, cursor.next patience = .done (poll, after) ∧
      cursor.Polled rest filed? poll after rest := by
  unfold next step
  cases hrows : cursor.rows with
  | cons row rows =>
      refine ⟨_, _, rfl, ⟨h.sent, h.more, h.id, h.filed, fun hdone => ?_⟩, rfl, rfl, ?_, ?_⟩
      · simp [(h.done hdone).1] at hrows
      · simp [hrows, expected]
      · simp [hrows]
  | nil =>
      obtain rfl : rest = [] := hready.resolve_left (fun hne => hne hrows)
      have hmore : cursor.hasMore = false := h.more
      cases hdone : cursor.isDone with
      | true =>
          refine ⟨_, _, rfl, h, rfl, rfl, ?_, ?_⟩
          · simp [hrows, expected]
          · simp [hrows]
      | false =>
          rw [if_neg Bool.false_ne_true, h.sent, hmore]
          refine ⟨_, _, rfl, ⟨rfl, rfl, h.id, h.filed, fun _ => ⟨rfl, rfl⟩⟩, rfl, rfl, ?_, ?_⟩
          · simp [hrows, expected]
          · simp [hrows]

theorem Stands.step_of_rest {cursor : Cursor α} {rest : List Json} {filed? : Option String}
    (h : cursor.Stands rest filed?) (hrows : cursor.rows = []) (hrest : rest ≠ []) :
    ∃ id, filed? = some id ∧ cursor.isDone = false ∧
      cursor.step = .fetch (.plain .put (cursor.path id)) cursor := by
  obtain ⟨id, rfl⟩ := Option.isSome_iff_exists.1 (h.filed hrest)
  have hempty : rest.isEmpty = false := List.isEmpty_eq_false_iff.2 hrest
  have hid : cursor.id = some id := by rw [h.id, hempty]; rfl
  have hmore : cursor.hasMore = true := by rw [h.more, hempty]; rfl
  have hdone : cursor.isDone = false := by
    cases hdone : cursor.isDone with
    | true => exact absurd (h.done hdone).2 hrest
    | false => rfl
  refine ⟨id, rfl, hdone, ?_⟩
  unfold step
  rw [hrows, hdone, h.sent, hmore, hid]
  rfl

theorem receive_of_read (cursor : Cursor α) {status : Nat} (hstatus : 200 ≤ status ∧ status < 300)
    {body : Json} {batch : Batch} (h : Batch.read body = some batch) :
    cursor.receive (.ok ⟨status, body⟩) = (none, cursor.absorb batch) := by
  unfold receive
  rw [batchOf_of_read hstatus h]

theorem stands_absorb {cursor : Cursor α} {batch : Batch} {rest : List Json}
    {filed? : Option String} (hsent : cursor.initial = none) (hdone : cursor.isDone = false)
    (hmore : batch.hasMore = !rest.isEmpty)
    (hid : rest ≠ [] → batch.id = filed? ∧ filed?.isSome) :
    (cursor.absorb batch).Stands rest filed? := by
  refine ⟨hsent, hmore, ?_, fun hne => (hid hne).2, fun hfinished => ?_⟩
  · show (if batch.hasMore then batch.id else none) = if rest.isEmpty then none else filed?
    rw [hmore]
    cases rest with
    | nil => rfl
    | cons row rows => exact (hid (List.cons_ne_nil row rows)).1
  · exact absurd (hdone.symm.trans hfinished) Bool.false_ne_true

theorem take_ne_nil_or_drop_eq_nil {size : Nat} (hsize : 0 < size) (rows : List Json) :
    rows.take size ≠ [] ∨ rows.drop size = [] := by
  by_cases hempty : rows = []
  · exact Or.inr (by simp [hempty])
  · refine Or.inl fun htake => ?_
    rcases List.take_eq_nil_iff.1 htake with h | h
    · omega
    · exact hempty h

end Cursor

/-! ## The next batch -/

namespace Server

theorem refile_eq_self {server : Server} {id : String} {rows : List Json} {size : Nat}
    (h : server.cursors.get? id = remaining rows size) : server.refile id rows size = server := by
  have hcursors : (server.refile id rows size).cursors = server.cursors := by
    refine Table.ext_get? fun other => ?_
    rw [get?_refile]
    split
    · rename_i heq
      rw [← heq, h]
    · rfl
  calc server.refile id rows size
      = { server with cursors := (server.refile id rows size).cursors } := rfl
    _ = server := by rw [hcursors]

def keep (server : Server) (filed? : Option String) (rows : List Json) (size : Nat) : Server :=
  match filed? with
  | some id => server.refile id rows size
  | none => server

theorem keep_eq_self {server : Server} {filed? : Option String} {rows : List Json} {size : Nat}
    (h : ∀ id ∈ filed?, server.cursors.get? id = remaining rows size) :
    server.keep filed? rows size = server := by
  cases filed? with
  | none => rfl
  | some id => exact refile_eq_self (h id rfl)

section

variable (server : Server) (filed? : Option String) (rows : List Json) (size : Nat)

@[simp] theorem databases_keep : (server.keep filed? rows size).databases = server.databases := by
  cases filed? <;> rfl

@[simp] theorem scripted_keep : (server.keep filed? rows size).scripted = server.scripted := by
  cases filed? <;> rfl

@[simp] theorem lastCursor_keep :
    (server.keep filed? rows size).lastCursor = server.lastCursor := by
  cases filed? <;> rfl

theorem get?_keep_of_mem {id : String} (h : id ∈ filed?) :
    (server.keep filed? rows size).cursors.get? id = remaining rows size := by
  obtain rfl : filed? = some id := h
  simp [keep, get?_refile]

theorem get?_keep_of_not_mem {id : String} (h : id ∉ filed?) :
    (server.keep filed? rows size).cursors.get? id = server.cursors.get? id := by
  cases filed? with
  | none => rfl
  | some other =>
      have hne : other ≠ id := fun heq => h (congrArg some heq)
      simp [keep, get?_refile, hne]

end

end Server

namespace Host

theorem answerFrom_of_granted {host : Host} (hfailures : host.failures = []) {request : Request}
    {response : Response} {after : Server}
    (h : host.server.handle (draw (host.revisions + 1)) request =
      host.server.settle (.ok ⟨response, after⟩)) :
    host.answerFrom draw request = (.ok response, { host with server := after }) := by
  obtain ⟨server, failures, revisions⟩ := host
  obtain rfl : failures = [] := hfailures
  unfold answerFrom
  dsimp only at h ⊢
  rw [h]
  rfl

variable (draw) in
theorem answerFrom_nextBatch {host : Host} (hfailures : host.failures = []) {name id : String}
    {database : StoredDatabase} (hdatabase : host.server.databases.get? name = some database)
    {rows : List Json} {size : Nat}
    (hstored : host.server.cursors.get? id = some ⟨rows, size⟩) :
    ∃ body, host.answerFrom draw (Request.plain .put (Http.apiPath name ["cursor", id])) =
        (.ok ⟨200, body⟩, { host with server := host.server.refile id (rows.drop size) size }) ∧
      Batch.read body =
        some ⟨rows.take size, !(rows.drop size).isEmpty, some id, none, none⟩ := by
  obtain ⟨body, hruling, hread⟩ := Server.nextBatch_eq hstored
  refine ⟨body, answerFrom_of_granted hfailures ?_, hread⟩
  rw [Server.handle_nextBatch hdatabase, hruling]

variable (draw) in
theorem answerFrom_closeCursor {host : Host} (hfailures : host.failures = []) {name id : String}
    {database : StoredDatabase} (hdatabase : host.server.databases.get? name = some database)
    {stored : StoredCursor} (hstored : host.server.cursors.get? id = some stored) :
    ∃ body, host.answerFrom draw (Request.plain .delete (Http.apiPath name ["cursor", id])) =
      (.ok ⟨202, body⟩, { host with server := host.server.refile id [] 0 }) := by
  obtain ⟨body, hruling⟩ := Server.closeCursor_eq hstored
  refine ⟨body, answerFrom_of_granted hfailures ?_⟩
  rw [Server.handle_closeCursor hdatabase, hruling]

variable (draw) in
/-- A poll of an opened cursor hands out the first row that it stands for, and changes nothing on
the server but the rows that remain for this cursor. -/
theorem poll_of_stands {α : Type} {host : Host} (hfailures : host.failures = [])
    {cursor : Cursor α} {database : StoredDatabase}
    (hdatabase : host.server.databases.get? cursor.database = some database)
    {rest : List Json} {filed? : Option String} {size : Nat} (hsize : 0 < size)
    (h : cursor.Stands rest filed?)
    (hkept : ∀ id ∈ filed?, host.server.cursors.get? id = Server.remaining rest size)
    (spare : Nat) :
    ∃ poll after rest', (cursor.next (spare + 1)).run (answerFrom draw) host =
        ((poll, after), { host with server := host.server.keep filed? rest' size }) ∧
      cursor.Polled rest filed? poll after rest' := by
  by_cases hready : cursor.rows ≠ [] ∨ rest = []
  · obtain ⟨poll, after, hnext, hpolled⟩ := Cursor.next_of_buffered h hready (spare + 1)
    refine ⟨poll, after, rest, ?_, hpolled⟩
    rw [hnext, Server.keep_eq_self hkept]
    rfl
  · -- Nothing is buffered and rows remain: a batch is asked for, and it has a row.
    obtain ⟨hrows, hrest⟩ := not_or.1 hready
    have hrows : cursor.rows = [] := not_not.1 hrows
    obtain ⟨id, rfl, hdone, hstep⟩ := h.step_of_rest hrows hrest
    have hstored : host.server.cursors.get? id = some ⟨rest, size⟩ := by
      rw [hkept id rfl, Server.remaining, List.isEmpty_eq_false_iff.2 hrest]
      rfl
    obtain ⟨body, hanswer, hread⟩ :=
      answerFrom_nextBatch draw hfailures hdatabase hstored
    let batch : Batch :=
      ⟨rest.take size, !(rest.drop size).isEmpty, some id, none, none⟩
    have hreceive : cursor.receive (.ok ⟨200, body⟩) = (none, cursor.absorb batch) :=
      cursor.receive_of_read (by decide) hread
    have hstands : (cursor.absorb batch).Stands (rest.drop size) (some id) :=
      Cursor.stands_absorb h.sent hdone rfl fun _ => ⟨rfl, rfl⟩
    have hbuffered : (cursor.absorb batch).rows = rest.take size := by
      simp [Cursor.absorb, hrows, batch]
    obtain ⟨poll, after, hnext, hpolled⟩ := Cursor.next_of_buffered hstands
      (hbuffered ▸ Cursor.take_ne_nil_or_drop_eq_nil hsize rest) spare
    refine ⟨poll, after, rest.drop size, ?_, hpolled.stands, hpolled.decode, hpolled.database,
      ?_, ?_⟩
    · unfold Cursor.next
      rw [hstep]
      simp only [Exchange.run, Cursor.path, hanswer, hreceive, hnext]
      rfl
    · rw [hpolled.brings, hbuffered, List.take_append_drop, hrows]
      rfl
    · rw [hpolled.leaves, hbuffered, List.take_append_drop, hrows]
      rfl

/-! ## Giving up the rest -/

theorem run_attempt_send (request : Request) (what : String) :
    (Client.send request what).attempt.run =
      .ask request fun answer => .done (.ok (Client.received what answer)) := by
  rw [Client.attempt, ExceptT.run_lift, Client.run_send]
  rfl

/-- Closing a cursor asks the server to give up the rows that it keeps, if any; it is as well if the
server knows of none. -/
theorem run_close {α : Type} (cursor : Cursor α) (host : Host) :
    cursor.close.run.run (answerFrom draw) host =
      match cursor.hasMore, cursor.id with
      | true, some id =>
        let reply := host.answerFrom draw (.plain .delete (cursor.path id))
        (match Client.received ("cursor " ++ id) reply.1 with
          | .ok _ | .error (.notFound ..) => .ok ()
          | .error error => .error error, reply.2)
      | _, _ => (.ok (), host) := by
  unfold Cursor.close
  cases cursor.hasMore with
  | false => rfl
  | true =>
      cases cursor.id with
      | none => rfl
      | some id =>
          dsimp only
          rw [ExceptT.run_bind, run_attempt_send]
          show Exchange.run _ (Exchange.andThen _ _) host = _
          rw [Exchange.run_andThen]
          simp only [Exchange.run]
          rcases Client.received ("cursor " ++ id)
            (host.answerFrom draw (.plain .delete (cursor.path id))).1 with error | body
          · cases error <;> rfl
          · rfl

/-- Whether or not rows remain, a cursor that is closed leaves none on the server, and nothing else
changes. -/
theorem close_of_stands {α : Type} {host : Host} (hfailures : host.failures = [])
    {cursor : Cursor α} {database : StoredDatabase}
    (hdatabase : host.server.databases.get? cursor.database = some database)
    {rest : List Json} {filed? : Option String} {size : Nat} (h : cursor.Stands rest filed?)
    (hkept : ∀ id ∈ filed?, host.server.cursors.get? id = Server.remaining rest size) :
    cursor.close.run.run (answerFrom draw) host =
      (.ok (), { host with server := host.server.keep filed? [] 0 }) := by
  rw [run_close, h.more, h.id]
  cases rest with
  | nil =>
      have hnone : ∀ id ∈ filed?, host.server.cursors.get? id = Server.remaining [] 0 := hkept
      rw [Server.keep_eq_self hnone]
      rfl
  | cons row rows =>
      obtain ⟨id, rfl⟩ := Option.isSome_iff_exists.1 (h.filed (List.cons_ne_nil row rows))
      have hstored : host.server.cursors.get? id = some ⟨row :: rows, size⟩ := hkept id rfl
      obtain ⟨body, hanswer⟩ := answerFrom_closeCursor draw hfailures hdatabase hstored
      simp only [List.isEmpty_cons, Bool.not_false, Bool.false_eq_true, if_false, Cursor.path,
        hanswer]
      rfl

end Host

/-! ## The opening request -/

theorem Aql.Program.text_forEach (name : String) (collection : Aql.Parameter)
    (statements : List Aql.Statement) (result : Aql.Result) :
    Aql.Program.text ⟨.forEach name collection :: statements, result⟩ =
      " ".intercalate (("FOR " ++ name ++ " IN " ++ collection.text) ::
        (statements.map Aql.Statement.text ++ ["RETURN " ++ result.text])) := rfl

theorem Query.text_ne_empty {query : Query} {compiled : CompiledQuery}
    (h : query.compile = .ok compiled) : compiled.text ≠ "" := by
  obtain ⟨program, bound, hrun, htext, _⟩ := Query.compile_eq_ok_iff.1 h
  obtain ⟨collection, _, _, hrun⟩ := Aql.run_bind_eq_ok_iff.1 hrun
  obtain ⟨inner, _, _, hprogram⟩ := Aql.run_bind_eq_ok_iff.1 hrun
  obtain ⟨rfl, _⟩ := Aql.run_pure_eq_ok_iff.1 hprogram
  -- The text begins with the word that introduces the root variable.
  rw [htext, Aql.Program.text_forEach]
  intro hempty
  cases hrest : inner.statements.map Aql.Statement.text
      ++ ["RETURN " ++ inner.result.text] with
  | nil => simp at hrest
  | cons part parts =>
      simp only [hrest, String.intercalate_cons_cons, String.append_eq_empty_iff] at hempty
      exact absurd hempty.1.1.1.1.1 (by decide)

def CompiledQuery.BindsExisting (compiled : CompiledQuery) (database : StoredDatabase) : Prop :=
  ∀ name value, (name, value) ∈ compiled.bindVars → name.toList.head? = some '@' →
    ∃ collection, value = .string collection ∧ database.collections.contains collection = true

def openMembers (config : Config) (compiled : CompiledQuery) (fullCount : Bool) : Json.Members :=
  [("query", .string compiled.text), ("bindVars", .object compiled.bindVars),
    ("count", .bool config.count)]
    ++ config.batchSize.toList.map (fun n => ("batchSize", Json.ofUInt64 n.toUInt64))
    ++ config.cursorTtl.toList.map (fun n => ("ttl", Json.ofUInt64 n.toUInt64))
    ++ if fullCount then [("options", .ofMembers [("fullCount", .bool true)])] else []

def Config.batchRows (config : Config) : Nat :=
  match config.batchSize with
  | some n => max n.toNat 1
  | none => Server.defaultBatchSize

theorem Config.batchRows_pos (config : Config) : 0 < config.batchRows := by
  unfold batchRows
  split
  · exact Nat.lt_of_lt_of_le Nat.one_pos (Nat.le_max_right _ _)
  · decide

section

variable (config : Config) (compiled : CompiledQuery) (fullCount : Bool)

theorem openRequest_eq :
    openRequest config compiled fullCount = ⟨.post, Http.apiPath config.database ["cursor"], [],
      some (.ofMembers (openMembers config compiled fullCount))⟩ := rfl

theorem nodup_openMembers : ((openMembers config compiled fullCount).map Prod.fst).Nodup := by
  unfold openMembers
  cases config.batchSize <;> cases config.cursorTtl <;> cases fullCount <;> simp

theorem get?_openMembers (name : String) :
    Assoc.get? name (Assoc.ofList (openMembers config compiled fullCount)) =
      Assoc.get? name (openMembers config compiled fullCount) :=
  Assoc.get?_ofList (nodup_openMembers config compiled fullCount) name

theorem batchSize_openMembers :
    Server.batchSize (Assoc.ofList (openMembers config compiled fullCount)) =
      config.batchRows := by
  unfold Server.batchSize Config.batchRows
  rw [get?_openMembers]
  cases hsize : config.batchSize with
  | none =>
      have hnone : Assoc.get? "batchSize" (openMembers config compiled fullCount) = none := by
        unfold openMembers
        rw [hsize]
        cases config.cursorTtl <;> cases fullCount <;> rfl
      rw [hnone]
      rfl
  | some n =>
      have hsome : Assoc.get? "batchSize" (openMembers config compiled fullCount) =
          some (.ofUInt64 n.toUInt64) := by
        unfold openMembers
        rw [hsize]
        rfl
      rw [hsome, Option.bind_some, Json.asUInt64?_ofUInt64]
      simp

end

namespace Server

theorem collectionsExist_openMembers (config : Config) {compiled : CompiledQuery}
    (fullCount : Bool) {database : StoredDatabase} (h : compiled.BindsExisting database) :
    collectionsExist database (Assoc.ofList (openMembers config compiled fullCount)) = true := by
  have hvars : Assoc.get? "bindVars" (openMembers config compiled fullCount) =
      some (.object compiled.bindVars) := rfl
  unfold collectionsExist
  rw [get?_openMembers, hvars]
  refine List.all_eq_true.2 fun ⟨name, value⟩ hmem => ?_
  by_cases hname : name.toList.head? = some '@'
  · obtain ⟨collection, rfl, hcollection⟩ := h name value hmem hname
    simp [Json.asString?, hcollection]
  · simp [hname]

end Server

namespace Host

variable (draw)

theorem answerFrom_open {host : Host} (hfailures : host.failures = []) {config : Config}
    {database : StoredDatabase}
    (hdatabase : host.server.databases.get? config.database = some database)
    {query : Query} {compiled : CompiledQuery} (hcompile : query.compile = .ok compiled)
    (hbound : compiled.BindsExisting database) (fullCount : Bool) :
    ∃ body count? fullCount?,
      host.answerFrom draw (openRequest config compiled fullCount) =
        (.ok ⟨201, body⟩, { host with server := host.server.opened config.batchRows }) ∧
      Batch.read body = some (host.server.firstBatch config.batchRows count? fullCount?) := by
  let members := Assoc.ofList (openMembers config compiled fullCount)
  have hquery : (Server.queryText? members).isSome := by
    have htext : Assoc.get? "query" (openMembers config compiled fullCount) =
      some (.string compiled.text) := rfl
    have hne := Query.text_ne_empty hcompile
    simp only [Server.queryText?, members, get?_openMembers, htext]
    simp [Json.asString?, hne]
  obtain ⟨count?, fullCount?, hruling⟩ := Server.openCursor_eq host.server hquery
    (Server.collectionsExist_openMembers config fullCount hbound)
  rw [batchSize_openMembers] at hruling
  refine ⟨_, count?, fullCount?, answerFrom_of_granted hfailures ?_, Server.read_firstMembers _⟩
  rw [openRequest_eq, Server.handle_openCursor hdatabase]
  exact congrArg _ hruling

variable {draw} in
theorem stands_opened {α : Type} (server : Server) {fresh : Cursor α}
    (hsent : fresh.initial = none) (hdone : fresh.isDone = false) (size : Nat)
    (count? fullCount? : Option UInt64) :
    (fresh.absorb (server.firstBatch size count? fullCount?)).Stands
      ((server.scriptedRows 0).drop size) (server.openedId? size) := by
  refine Cursor.stands_absorb hsent hdone rfl fun hne => ⟨rfl, ?_⟩
  rw [Server.openedId?, List.isEmpty_eq_false_iff.2 hne]
  rfl

theorem poll_of_new {α : Type} {host : Host} (hfailures : host.failures = []) {config : Config}
    {database : StoredDatabase}
    (hdatabase : host.server.databases.get? config.database = some database)
    {query : Query} {compiled : CompiledQuery} (hcompile : query.compile = .ok compiled)
    (hbound : compiled.BindsExisting database) (decode : Json → Except Error α) (spare : Nat) :
    ∃ poll after size, 0 < size ∧
      ((Cursor.new config.database (openRequest config compiled false) decode).next
        (spare + 1)).run (answerFrom draw) host =
          ((poll, after), { host with server := host.server.opened size }) ∧
      ∃ filed?, after.Stands ((host.server.scriptedRows 0).drop size) filed? ∧
        filed? = (if ((host.server.scriptedRows 0).drop size).isEmpty then none
          else some (toString (host.server.lastCursor + 1))) ∧
        after.decode = decode ∧ after.database = config.database ∧
        poll = Cursor.expected decode (host.server.scriptedRows 0).head? ∧
        after.rows ++ (host.server.scriptedRows 0).drop size =
          (host.server.scriptedRows 0).tail := by
  obtain ⟨body, count?, fullCount?, hanswer, hread⟩ :=
    answerFrom_open draw hfailures hdatabase hcompile hbound false
  let size := config.batchRows
  have hsize : 0 < size := config.batchRows_pos
  let rows := host.server.scriptedRows 0
  let fresh : Cursor α := { Cursor.new config.database (openRequest config compiled false) decode
    with initial := none }
  let opened : Cursor α := fresh.absorb (host.server.firstBatch size count? fullCount?)
  have hreceive : fresh.receive (.ok ⟨201, body⟩) = (none, opened) :=
    fresh.receive_of_read (by decide) hread
  have hrows : opened.rows = rows.take size := rfl
  have hstands : opened.Stands (rows.drop size) (host.server.openedId? size) :=
    stands_opened host.server rfl rfl size count? fullCount?
  have hready : opened.rows ≠ [] ∨ rows.drop size = [] :=
    Cursor.take_ne_nil_or_drop_eq_nil hsize rows
  obtain ⟨poll, after, hnext, hpolled⟩ := Cursor.next_of_buffered hstands hready spare
  refine ⟨poll, after, size, hsize, ?_, _, hpolled.stands, rfl, hpolled.decode,
    hpolled.database, ?_, ?_⟩
  · have hstep : (Cursor.new config.database (openRequest config compiled false) decode).step
        = .fetch (openRequest config compiled false) fresh := rfl
    unfold Cursor.next
    rw [hstep]
    simp only [Exchange.run, hanswer, hreceive, hnext]
    rfl
  · rw [hpolled.brings, hrows, List.take_append_drop]
    rfl
  · rw [hpolled.leaves, hrows, List.take_append_drop]

end Host

end DocGraph
