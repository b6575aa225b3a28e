import DocGraph.Proofs.Client.Pages
import DocGraph.Proofs.Streams.Delivery
/-!
# What is left of a result that was read

Whoever collects a result or reads a page of it takes batch after batch, until no rows are left or
one cannot be decoded.  The cursor is not closed then, so the server keeps the batches that were not
fetched: there are some exactly if a row that cannot be decoded stands in a batch before the last.
Whoever reads the first row alone closes the cursor afterwards, and nothing is kept.
-/

namespace DocGraph

open Outcome

variable {draw : Nat → String}

/-! ## Results that break off -/

namespace Cursor

variable {α σ : Type} {answer : σ → Request → Answer × σ} {transport : σ}
  {decode : Json → Except Error α} {size : Nat}

/-- What reading up to the first row that cannot be decoded brings. -/
def attempts (decode : Json → Except Error α) : List Json → List (Except Error α)
  | [] => []
  | row :: rows => decode row :: if (decode row).isOk then attempts decode rows else []

variable (answer transport decode) in
theorem run_mapM_attempts (rows : List Json) :
    ((attempts decode rows).mapM fun item => (liftM item : Client α)).run.run answer transport =
      (rows.mapM decode, transport) := by
  induction rows with
  | nil => rfl
  | cons row rows ih =>
      unfold attempts
      rw [List.mapM_cons, List.mapM_cons]
      cases hrow : decode row with
      | error error => rfl
      | ok item =>
          rw [Client.run_bind_of_ok (Client.run_lift_ok item transport), ok_bind]
          have hok : (Except.ok item : Except Error α).isOk = true := rfl
          rw [hok, if_pos rfl]
          cases hrows : rows.mapM decode with
          | error error =>
              rw [hrows] at ih
              exact Client.run_bind_of_error ih
          | ok items =>
              rw [hrows] at ih
              exact Client.run_bind_of_ok ih

/-- A row that cannot be decoded stands in a batch before the last. -/
def CutShort (decode : Json → Except Error α) (size : Nat) (rows : List Json) : Prop :=
  ∃ n row, rows[n]? = some row ∧ (decode row).isOk = false ∧ (n / size + 1) * size < rows.length

def BreaksOff (decode : Json → Except Error α) (size : Nat) (buffered rest : List Json) : Prop :=
  ((∃ row ∈ buffered, (decode row).isOk = false) ∧ rest ≠ []) ∨ CutShort decode size rest

theorem not_breaksOff_nil (buffered : List Json) : ¬ BreaksOff decode size buffered [] := by
  rintro (⟨_, hrest⟩ | ⟨n, row, hrow, _⟩)
  · exact hrest rfl
  · simp at hrow

theorem breaksOff_cons_of_ok {row : Json} {buffered rest : List Json} (hrow : (decode row).isOk) :
    BreaksOff decode size (row :: buffered) rest ↔ BreaksOff decode size buffered rest := by
  simp [BreaksOff, hrow]

/-- Nothing is left at a row that cannot be decoded exactly if nothing was left on the server. -/
theorem eq_nil_iff_of_bad {row : Json} {buffered rest : List Json}
    (hrow : (decode row).isOk = false) :
    rest = [] ↔ ¬ BreaksOff decode size (row :: buffered) rest := by
  constructor
  · rintro rfl
    exact not_breaksOff_nil _
  · intro h
    by_contra hrest
    exact h (.inl ⟨⟨row, List.mem_cons_self, hrow⟩, hrest⟩)

theorem cutShort_iff_breaksOff (hsize : 0 < size) (rows : List Json) :
    CutShort decode size rows ↔ BreaksOff decode size (rows.take size) (rows.drop size) := by
  have hnext (n : Nat) : ((size + n) / size + 1) * size = (n / size + 1) * size + size := by
    rw [Nat.add_div_left n hsize]
    ring
  constructor
  · rintro ⟨n, row, hrow, hbad, hmore⟩
    by_cases hn : n < size
    · refine .inl ⟨⟨row, ?_, hbad⟩, ?_⟩
      · exact List.mem_of_getElem? (by rw [List.getElem?_take_of_lt hn, hrow])
      · rw [Nat.div_eq_of_lt hn, Nat.zero_add, Nat.one_mul] at hmore
        simpa using hmore
    · obtain ⟨m, rfl⟩ := Nat.exists_eq_add_of_le (Nat.not_lt.1 hn)
      rw [hnext] at hmore
      refine .inr ⟨m, row, by rw [List.getElem?_drop, hrow], hbad, ?_⟩
      rw [List.length_drop]
      omega
  · rintro (⟨⟨row, hmem, hbad⟩, hrest⟩ | ⟨m, row, hrow, hbad, hmore⟩)
    · obtain ⟨n, hn, rfl⟩ := List.mem_take_iff_getElem.1 hmem
      obtain ⟨hsmall, hlength⟩ := Nat.lt_min.1 hn
      refine ⟨n, rows[n], List.getElem?_eq_getElem hlength, hbad, ?_⟩
      rw [Nat.div_eq_of_lt hsmall, Nat.zero_add, Nat.one_mul]
      simpa using hrest
    · rw [List.length_drop] at hmore
      rw [List.getElem?_drop] at hrow
      refine ⟨size + m, row, hrow, hbad, ?_⟩
      rw [hnext]
      omega

/-! ## Reading on -/

variable {cursor next : Cursor α} {rest : List Json} {filed? : Option String} {patience : Nat}

theorem run_drain_of_bad {item : Except Error α} (hstep : cursor.step = .row item next)
    (hbad : item.isOk = false) :
    (cursor.drain true (patience + 1)).run answer transport = (([item], next), transport) := by
  have hstops : stops true item = true := by simp [stops, hbad]
  rw [drain, hstep]
  simp only [hstops, if_true]
  rfl

theorem Stands.step_of_nothing (h : cursor.Stands [] filed?) (hrows : cursor.rows = []) :
    ∃ last, cursor.step = .finished last := by
  have hmore : cursor.hasMore = false := h.more
  unfold step
  rw [hrows]
  cases cursor.isDone with
  | true => exact ⟨_, rfl⟩
  | false =>
      rw [if_neg Bool.false_ne_true, h.sent, hmore]
      exact ⟨_, rfl⟩

end Cursor

theorem Server.keep_keep (server : Server) (filed? : Option String) (rows rows' : List Json)
    (size size' : Nat) :
    (server.keep filed? rows size).keep filed? rows' size' = server.keep filed? rows' size' := by
  cases filed? with
  | none => rfl
  | some id =>
      have hcursors : ((server.refile id rows size).refile id rows' size').cursors =
          (server.refile id rows' size').cursors := by
        refine Table.ext_get? fun other => ?_
        simp only [get?_refile]
        split <;> rfl
      let refiled := (server.refile id rows size).refile id rows' size'
      calc refiled = { server with cursors := refiled.cursors } := rfl
        _ = { server with cursors := (server.refile id rows' size').cursors } := by rw [hcursors]
        _ = server.refile id rows' size' := rfl

variable (draw) in
theorem Host.run_drain_of_rest {α : Type} {host : Host} (hfailures : host.failures = [])
    {cursor : Cursor α} {database : StoredDatabase}
    (hdatabase : host.server.databases.get? cursor.database = some database)
    {rest : List Json} {filed? : Option String} {size : Nat} (h : cursor.Stands rest filed?)
    (hkept : ∀ id ∈ filed?, host.server.cursors.get? id = Server.remaining rest size)
    (hrows : cursor.rows = []) (hrest : rest ≠ []) :
    ∃ next : Cursor α, next.Stands (rest.drop size) filed? ∧ next.rows = rest.take size ∧
      next.decode = cursor.decode ∧ next.database = cursor.database ∧
      ∀ patience, (cursor.drain true (patience + 1)).run (answerFrom draw) host =
        (next.drain true patience).run (answerFrom draw)
          { host with server := host.server.keep filed? (rest.drop size) size } := by
  obtain ⟨id, rfl, hdone, hstep⟩ := h.step_of_rest hrows hrest
  have hstored : host.server.cursors.get? id = some ⟨rest, size⟩ := by
    rw [hkept id rfl, Server.remaining, List.isEmpty_eq_false_iff.2 hrest]
    rfl
  obtain ⟨body, hanswer, hread⟩ := answerFrom_nextBatch draw hfailures hdatabase hstored
  let batch : Batch := ⟨rest.take size, !(rest.drop size).isEmpty, some id, none, none⟩
  have hbatch : Cursor.batchOf (.ok ⟨200, body⟩) = .ok batch :=
    Cursor.batchOf_of_read (by decide) hread
  refine ⟨cursor.absorb batch, Cursor.stands_absorb h.sent hdone rfl fun _ => ⟨rfl, rfl⟩, ?_, rfl,
    rfl, fun patience => Cursor.run_drain_of_batch hstep hanswer hbatch⟩
  simp [Cursor.absorb, hrows, batch]

variable (draw) in
/-- An opened cursor that is read to the first row that cannot be decoded leaves what it did not
fetch, and changes nothing else on the server. -/
theorem Host.drain_of_stands {α : Type} {host : Host} (hfailures : host.failures = [])
    {cursor : Cursor α} {database : StoredDatabase}
    (hdatabase : host.server.databases.get? cursor.database = some database)
    {rest : List Json} {filed? : Option String} {size : Nat} (hsize : 0 < size)
    (h : cursor.Stands rest filed?)
    (hkept : ∀ id ∈ filed?, host.server.cursors.get? id = Server.remaining rest size)
    {patience : Nat} (hpatience : cursor.rows.length + 2 * rest.length + 1 ≤ patience) :
    ∃ last left, (cursor.drain true patience).run (answerFrom draw) host =
        ((Cursor.attempts cursor.decode (cursor.rows ++ rest), last),
          { host with server := host.server.keep filed? left size }) ∧
      (left = [] ↔ ¬ Cursor.BreaksOff cursor.decode size cursor.rows rest) := by
  -- Every step hands out a buffered row, or buffers rows that are left, which count for more.
  induction patience generalizing cursor rest host with
  | zero => omega
  | succ patience ih =>
      cases hrows : cursor.rows with
      | cons row rows =>
          let next : Cursor α := { cursor with rows }
          have hstep : cursor.step = .row (cursor.decode row) next := by
            rw [Cursor.step, hrows]
          have hnext : next.Stands rest filed? := by
            refine ⟨h.sent, h.more, h.id, h.filed, fun hdone => ?_⟩
            simp [(h.done hdone).1] at hrows
          have hserved : host.server.databases.get? next.database = some database := hdatabase
          have hless : next.rows.length + 2 * rest.length + 1 ≤ patience := by
            rw [hrows, List.length_cons] at hpatience
            show rows.length + 2 * rest.length + 1 ≤ patience
            omega
          rw [List.cons_append, Cursor.attempts]
          cases hrow : (cursor.decode row).isOk with
          | true =>
              obtain ⟨last, left, hdrain, hleft⟩ := ih hfailures hserved hnext hkept hless
              exact ⟨last, left, Cursor.run_drain_of_row hstep hrow hdrain,
                hleft.trans (not_congr (Cursor.breaksOff_cons_of_ok hrow).symm)⟩
          | false =>
              refine ⟨next, rest, ?_, Cursor.eq_nil_iff_of_bad hrow⟩
              rw [Cursor.run_drain_of_bad hstep hrow, Server.keep_eq_self hkept]
              rfl
      | nil =>
          by_cases hrest : rest = []
          · obtain rfl := hrest
            obtain ⟨last, hstep⟩ := h.step_of_nothing hrows
            refine ⟨last, [], ?_, iff_of_true rfl (Cursor.not_breaksOff_nil _)⟩
            rw [Cursor.run_drain_of_finished hstep, Server.keep_eq_self hkept]
            rfl
          · obtain ⟨next, hnext, hbuffered, hdecode, hname, hrun⟩ :=
              run_drain_of_rest draw hfailures hdatabase h hkept hrows hrest
            let between : Host :=
              { host with server := host.server.keep filed? (rest.drop size) size }
            have hquiet : between.failures = [] := hfailures
            have hserved : between.server.databases.get? next.database = some database := by
              rw [hname, Server.databases_keep, hdatabase]
            have hfiled : ∀ id ∈ filed?, between.server.cursors.get? id =
                Server.remaining (rest.drop size) size := fun id hid =>
              Server.get?_keep_of_mem host.server filed? _ _ hid
            have hless : next.rows.length + 2 * (rest.drop size).length + 1 ≤ patience := by
              have hsome : 0 < rest.length := List.length_pos_iff.2 hrest
              rw [hbuffered, List.length_take, List.length_drop]
              rw [hrows, List.length_nil] at hpatience
              omega
            obtain ⟨last, left, hdrain, hleft⟩ := ih hquiet hserved hnext hfiled hless
            rw [hdecode, hbuffered] at hdrain hleft
            rw [List.take_append_drop, Server.keep_keep] at hdrain
            refine ⟨last, left, (hrun patience).trans hdrain, ?_⟩
            rw [hleft, ← Cursor.cutShort_iff_breaksOff hsize]
            simp [Cursor.BreaksOff]

/-! ## What the operations leave -/

namespace Server

theorem get?_opened_of_mem (server : Server) {size : Nat} {id : String}
    (hid : id ∈ server.openedId? size) :
    (server.opened size).cursors.get? id =
      remaining ((server.scriptedRows 0).drop size) size := by
  unfold openedId? at hid
  rw [get?_opened]
  split at hid
  · simp at hid
  · rename_i hrest
    rw [if_pos ⟨by simpa using hrest, Option.some.inj hid⟩]

theorem cursors_keep_opened_iff {server : Server} (h : server.Numbered) {left : List Json}
    {size : Nat} (hleft : (server.scriptedRows 0).drop size = [] → left = []) (size' : Nat) :
    ((server.opened size).keep (server.openedId? size) left size').cursors = server.cursors ↔
      left = [] := by
  unfold openedId?
  cases hrest : ((server.scriptedRows 0).drop size).isEmpty with
  | true =>
      have hempty := hleft (List.isEmpty_iff.1 hrest)
      refine iff_of_true (Table.ext_get? fun id => ?_) hempty
      simp [keep, get?_opened, hrest]
  | false =>
      have hfresh : server.cursors.get? (toString (server.lastCursor + 1)) = none :=
        h.get?_eq_none (Nat.lt_succ_self _)
      rw [if_neg Bool.false_ne_true]
      constructor
      · intro hcursors
        have hget := congrArg (Table.get? · (toString (server.lastCursor + 1))) hcursors
        simp only [hfresh, get?_keep_of_mem _ _ _ _ rfl, remaining] at hget
        simpa using hget
      · rintro rfl
        refine Table.ext_get? fun id => ?_
        rw [keep, get?_refile]
        split
        · rename_i heq
          rw [← heq, hfresh]
          rfl
        · rename_i hne
          rw [get?_opened, if_neg fun h => hne h.2]

end Server

namespace Host

section FromNew

variable {α : Type} {host : Host} {config : Config} {database : StoredDatabase} {query : Query}
  {compiled : CompiledQuery}

variable (draw) in
theorem drain_of_new (hhost : host.Reached draw) (hfailures : host.failures = [])
    (hdatabase : host.server.databases.get? config.database = some database)
    (hcompile : query.compile = .ok compiled) (hbound : compiled.BindsExisting database)
    (fullCount : Bool) (decode : Json → Except Error α) {patience : Nat}
    (hpatience : 2 * (host.server.scriptedRows 0).length + 2 ≤ patience) :
    ∃ last after,
      ((Cursor.new config.database (openRequest config compiled fullCount) decode).drain true
        patience).run (answerFrom draw) host =
          ((Cursor.attempts decode (host.server.scriptedRows 0), last), after) ∧
      (after.server.cursors = host.server.cursors ↔
        ¬ Cursor.CutShort decode config.batchRows (host.server.scriptedRows 0)) := by
  obtain ⟨body, count?, fullCount?, hanswer, hread⟩ :=
    answerFrom_open draw hfailures hdatabase hcompile hbound fullCount
  have hsize := config.batchRows_pos
  let rows := host.server.scriptedRows 0
  let fresh : Cursor α :=
    { Cursor.new config.database (openRequest config compiled fullCount) decode with
      initial := none }
  let batch := host.server.firstBatch config.batchRows count? fullCount?
  let between : Host := { host with server := host.server.opened config.batchRows }
  have hstands : (fresh.absorb batch).Stands (rows.drop config.batchRows)
      (host.server.openedId? config.batchRows) :=
    stands_opened host.server rfl rfl config.batchRows count? fullCount?
  have hbuffered : (fresh.absorb batch).rows = rows.take config.batchRows := rfl
  have hquiet : between.failures = [] := hfailures
  have hserved : between.server.databases.get? (fresh.absorb batch).database = some database := by
    rw [Server.opened_databases]
    exact hdatabase
  have hless : (fresh.absorb batch).rows.length + 2 * (rows.drop config.batchRows).length + 1 ≤
      patience - 1 := by
    rw [hbuffered, List.length_take, List.length_drop]
    show min config.batchRows rows.length + 2 * (rows.length - config.batchRows) + 1 ≤ _
    have hbelow : 2 * rows.length + 2 ≤ patience := hpatience
    omega
  obtain ⟨last, left, hdrain, hleft⟩ := drain_of_stands draw hquiet hserved hsize hstands
    (fun _ hid => host.server.get?_opened_of_mem hid) hless
  rw [hbuffered, ← Cursor.cutShort_iff_breaksOff hsize] at hleft
  rw [hbuffered, List.take_append_drop] at hdrain
  let after := (host.server.opened config.batchRows).keep
    (host.server.openedId? config.batchRows) left config.batchRows
  refine ⟨last, { host with server := after }, ?_,
    (Server.cursors_keep_opened_iff hhost.numbered ?_ _).trans hleft⟩
  · obtain ⟨spare, rfl⟩ := Nat.exists_eq_add_of_le' (Nat.le_of_add_left_le hpatience)
    exact (Cursor.run_drain_of_batch rfl hanswer (Cursor.batchOf_of_read (by decide) hread)).trans
      hdrain
  · intro hrest
    rw [hleft, Cursor.cutShort_iff_breaksOff hsize, hrest]
    exact Cursor.not_breaksOff_nil _

variable (draw) in
/-- Collecting a result brings its rows decoded, or the first error. -/
theorem collect_of_new (hhost : host.Reached draw) (hfailures : host.failures = [])
    (hdatabase : host.server.databases.get? config.database = some database)
    (hcompile : query.compile = .ok compiled) (hbound : compiled.BindsExisting database)
    (decode : Json → Except Error α) {patience : Nat}
    (hpatience : 2 * (host.server.scriptedRows 0).length + 2 ≤ patience) :
    ∃ after,
      ((Cursor.new config.database (openRequest config compiled false) decode).collect
        patience).run.run (answerFrom draw) host =
          ((host.server.scriptedRows 0).mapM decode, after) ∧
      (after.server.cursors = host.server.cursors ↔
        ¬ Cursor.CutShort decode config.batchRows (host.server.scriptedRows 0)) := by
  obtain ⟨last, after, hdrain, hcursors⟩ :=
    drain_of_new draw hhost hfailures hdatabase hcompile hbound false decode hpatience
  refine ⟨after, ?_, hcursors⟩
  unfold Cursor.collect
  rw [Client.run_bind_of_ok (Client.run_lift hdrain)]
  exact Cursor.run_mapM_attempts _ after decode _

variable (draw) in
theorem first_of_new (hhost : host.Reached draw) (hfailures : host.failures = [])
    (hdatabase : host.server.databases.get? config.database = some database)
    (hcompile : query.compile = .ok compiled) (hbound : compiled.BindsExisting database)
    (decode : Json → Except Error α) (spare : Nat) :
    ∃ after,
      ((Cursor.new config.database (openRequest config compiled false) decode).first
        (spare + 1)).run.run (answerFrom draw) host =
          ((host.server.scriptedRows 0).head?.mapM decode, after) ∧
      after.server.cursors = host.server.cursors := by
  obtain ⟨poll, opened, size, hsize, hnext, filed?, hstands, rfl, _, hname, hpoll, _⟩ :=
    poll_of_new draw hfailures hdatabase hcompile hbound decode spare
  let between : Host := { host with server := host.server.opened size }
  have hserved : between.server.databases.get? opened.database = some database := by
    rw [hname, Server.opened_databases]
    exact hdatabase
  have hquiet : between.failures = [] := hfailures
  have hclose : opened.close.run.run (answerFrom draw) between = _ :=
    close_of_stands hquiet hserved hstands fun _ hid => host.server.get?_opened_of_mem hid
  let closed := (host.server.opened size).keep (host.server.openedId? size) [] 0
  refine ⟨{ host with server := closed }, ?_,
    (Server.cursors_keep_opened_iff hhost.numbered (fun _ => rfl) 0).2 rfl⟩
  unfold Cursor.first
  rw [Client.run_bind_of_ok (Client.run_lift hnext)]
  dsimp only
  rw [Client.run_bind_of_ok hclose, hpoll]
  cases (host.server.scriptedRows 0).head? with
  | none => rfl
  | some row =>
      show Exchange.run _ (ExceptT.run (liftM (decode row) >>= fun item => pure (some item))) _ = _
      show _ = ((decode row >>= fun item => pure (some item)), _)
      cases decode row <;> rfl

variable (draw) in
theorem page_of_new [CustomCodecs] (hhost : host.Reached draw) (hfailures : host.failures = [])
    {collection : Collection} {params : Pagination}
    (hdatabase : host.server.databases.get? collection.database.config.database = some database)
    (hquery : collection.checkQuery query = .ok ())
    (hcompile : (query.slice params.offset params.perPage).compile = .ok compiled)
    (hbound : compiled.BindsExisting database) {patience : Nat}
    (hpatience : 2 * (host.server.scriptedRows 0).length + 2 ≤ patience) :
    ∃ page fullCount after,
      (collection.page query params patience).run.run (answerFrom draw) host = (page, after) ∧
      page = ((host.server.scriptedRows 0).mapM (Collection.decodeRow query.current.schema)).map
        (Collection.pageOf · params fullCount) ∧
      (after.server.cursors = host.server.cursors ↔
        ¬ Cursor.CutShort (Collection.decodeRow query.current.schema)
          collection.database.config.batchRows (host.server.scriptedRows 0)) := by
  obtain ⟨last, after, hdrain, hcursors⟩ := drain_of_new draw hhost hfailures hdatabase hcompile
    hbound true (Collection.decodeRow query.current.schema) hpatience
  have hpage := Collection.run_page_of_drained hquery hcompile hdrain
  have hitems := Cursor.run_mapM_attempts (answerFrom draw) after
    (Collection.decodeRow query.current.schema) (host.server.scriptedRows 0)
  cases hloads :
      (host.server.scriptedRows 0).mapM (Collection.decodeRow query.current.schema) with
  | error error =>
      rw [hloads] at hitems
      exact ⟨_, last.fullCount, after, hpage.trans (Client.run_bind_of_error hitems), rfl, hcursors⟩
  | ok items =>
      rw [hloads] at hitems
      exact ⟨_, last.fullCount, after, hpage.trans (Client.run_bind_of_ok hitems), rfl, hcursors⟩

end FromNew

/-- No failures being injected and all bound collections there, a cursor whose first row is read
leaves the server the cursors that it had.  If a result is collected or read by pages, the server
has the cursors that it had exactly if the result is not cut short: if no row that cannot be decoded
stands in a batch before the last. -/
theorem reads_release [CustomCodecs] {host : Host} (hhost : host.Reached draw)
    (hfailures : host.failures = []) :
    (∀ (source : CursorSource) (cursor : Cursor (Drawn Entity ⊕ Json)), source.cursor = .ok cursor →
      source.BindsExisting host.server →
      (∀ patience ≥ 1, ∃ after,
        (cursor.first patience).run.run (answerFrom draw) host =
          ((host.server.scriptedRows 0).head?.mapM source.decode, after) ∧
        after.server.cursors = host.server.cursors) ∧
      ∀ patience ≥ 2 * (host.server.scriptedRows 0).length + 2, ∃ after,
        (cursor.collect patience).run.run (answerFrom draw) host =
          ((host.server.scriptedRows 0).mapM source.decode, after) ∧
        (after.server.cursors = host.server.cursors ↔
          ¬ Cursor.CutShort source.decode source.config.batchRows
            (host.server.scriptedRows 0))) ∧
    ∀ (collection : Collection) (query : Query) (params : Pagination),
      collection.checkQuery query = .ok () →
      (query.slice params.offset params.perPage).compile.isOk →
      (CursorSource.ofCollection collection
        (query.slice params.offset params.perPage)).BindsExisting host.server →
      ∀ patience ≥ 2 * (host.server.scriptedRows 0).length + 2, ∃ page fullCount after,
        (collection.page query params patience).run.run (answerFrom draw) host = (page, after) ∧
        page = ((host.server.scriptedRows 0).mapM (Collection.decodeRow query.current.schema)).map
          (Collection.pageOf · params fullCount) ∧
        (after.server.cursors = host.server.cursors ↔
          ¬ Cursor.CutShort (Collection.decodeRow query.current.schema)
            collection.database.config.batchRows (host.server.scriptedRows 0)) := by
  refine ⟨fun source cursor hcursor hbinds => ?_, fun collection query params hquery hok hbinds
    patience hpatience => ?_⟩
  · obtain ⟨compiled, hcompile, rfl⟩ := CursorSource.cursor_eq_ok hcursor
    obtain ⟨database, hdatabase, hbound⟩ := hbinds
    refine ⟨fun patience hpatience => ?_, fun patience hpatience => ?_⟩
    · obtain ⟨spare, rfl⟩ := Nat.exists_eq_add_of_le' hpatience
      exact first_of_new draw hhost hfailures hdatabase hcompile (hbound compiled hcompile) _ spare
    · exact collect_of_new draw hhost hfailures hdatabase hcompile (hbound compiled hcompile) _
        hpatience
  · obtain ⟨compiled, hcompile⟩ := exists_of_isOk hok
    obtain ⟨database, hdatabase, hbound⟩ := hbinds
    exact page_of_new draw hhost hfailures hdatabase hquery hcompile (hbound compiled hcompile)
      hpatience

end Host

/-! ## Berths -/

namespace Streams

attribute [local instance] CustomCodecs.none

def berthPage : Pagination := ⟨1, 10⟩

theorem binds_berthPage : (CursorSource.ofCollection berths
    ((Query.ofSchema berths.schema).slice berthPage.offset berthPage.perPage)).BindsExisting
      berthHost.server := by
  have hvars : (((Query.ofSchema berths.schema).slice berthPage.offset
      berthPage.perPage).compile.toOption.map (·.bindVars)) = some [
        ("@collection_0", .string "berths"), ("count_0", .ofUInt64 10),
        ("offset_0", .ofUInt64 0)] := by decide +kernel
  refine bindsExisting_berths rfl hvars fun name value hmem hcollection => ?_
  simp only [List.mem_cons, Prod.mk.injEq, List.not_mem_nil, or_false] at hmem
  rcases hmem with ⟨-, rfl⟩ | ⟨rfl, -⟩ | ⟨rfl, -⟩
  · rfl
  · exact absurd hcollection (by decide)
  · exact absurd hcollection (by decide)

theorem reads_release_berths :
    ∃ cursor, (CursorSource.ofAll berths).cursor = .ok cursor ∧
    (∃ after, (cursor.first 1).run.run (Host.answerFrom Host.revision) berthHost =
        ((berthHost.server.scriptedRows 0).head?.mapM (CursorSource.ofAll berths).decode, after) ∧
      after.server.cursors = berthHost.server.cursors) ∧
    (∃ after, (cursor.collect 12).run.run (Host.answerFrom Host.revision) berthHost =
        ((berthHost.server.scriptedRows 0).mapM (CursorSource.ofAll berths).decode, after) ∧
      (after.server.cursors = berthHost.server.cursors ↔
        ¬ Cursor.CutShort (CursorSource.ofAll berths).decode 2
          (berthHost.server.scriptedRows 0))) ∧
    ∃ page after, (berths.page (.ofSchema berths.schema) berthPage 12).run.run
        (Host.answerFrom Host.revision) berthHost = (page, after) ∧
      (after.server.cursors = berthHost.server.cursors ↔
        ¬ Cursor.CutShort (Collection.decodeRow berths.schema) 2
          (berthHost.server.scriptedRows 0)) := by
  have hbinds : (CursorSource.ofAll berths).BindsExisting berthHost.server :=
    binds_berths (by simp [berthMoves])
  obtain ⟨hcursors, hpages⟩ := Host.reads_release reached_berthHost rfl
  obtain ⟨hfirst, hcollect⟩ := hcursors (.ofAll berths) _ rfl hbinds
  obtain ⟨page, _, after, hrun, -, hkept⟩ := hpages berths (.ofSchema berths.schema) berthPage rfl
    (by decide +kernel) binds_berthPage 12 (by decide +kernel)
  exact ⟨_, rfl, hfirst 1 (Nat.le_refl 1), hcollect 12 (by decide +kernel), page, after, hrun,
    hkept⟩

/-- The second berth cannot be decoded: if all berths are collected or read by pages, the server
keeps the others. -/
theorem not_reads_release_berths :
    berthHost.server.openCursors = 0 ∧
    (∃ cursor, (CursorSource.ofAll berths).cursor = .ok cursor ∧
      ((cursor.collect 12).run.run (Host.answerFrom Host.revision)
        berthHost).2.server.openCursors = 1) ∧
    ((berths.page (.ofSchema berths.schema) berthPage 12).run.run
      (Host.answerFrom Host.revision) berthHost).2.server.openCursors = 1 :=
  ⟨by decide +kernel, ⟨_, rfl, by decide +kernel⟩, by decide +kernel⟩

end Streams

end DocGraph
