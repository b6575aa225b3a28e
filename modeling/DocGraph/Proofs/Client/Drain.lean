import DocGraph.Proofs.Client.Batch
/-!
# Cursors that are read to their end

A server delivers the rows of a query in one batch or in several.  A cursor that is drained hands
out the rows of all of them in order, and then knows the number of all rows that the server gave.
-/

namespace DocGraph

namespace Cursor

variable {α σ : Type} {answer : σ → Request → Answer × σ}

/-- The answers to a request, and to the requests for the batches after it, hold some rows, and the
number of rows that there would be without the last limit. -/
inductive Delivers (answer : σ → Request → Answer × σ) (database : String) :
    σ → Request → List Json → Option UInt64 → σ → Prop where
  | last {transport after : σ} {request : Request} {reply : Answer} {batch : Batch}
      (hanswer : answer transport request = (reply, after)) (hbatch : batchOf reply = .ok batch)
      (hmore : batch.hasMore = false) :
      Delivers answer database transport request batch.rows batch.fullCount after
  | more {transport next after : σ} {request : Request} {reply : Answer} {batch : Batch}
      {id : String} {rows : List Json} {fullCount : Option UInt64}
      (hanswer : answer transport request = (reply, next)) (hbatch : batchOf reply = .ok batch)
      (hmore : batch.hasMore = true) (hid : batch.id = some id)
      (hrest : Delivers answer database next (.plain .put (Http.apiPath database ["cursor", id]))
        rows fullCount after) :
      Delivers answer database transport request (batch.rows ++ rows)
        (fullCount.or batch.fullCount) after

/-! ## Steps of a cursor that is drained -/

variable {cursor next : Cursor α} {patience : Nat} {transport after : σ}
  {items : List (Except Error α)} {last : Cursor α}

theorem run_drain_of_row {row : Except Error α} (hstep : cursor.step = .row row next)
    (hok : row.isOk)
    (hrest : (next.drain true patience).run answer transport = ((items, last), after)) :
    (cursor.drain true (patience + 1)).run answer transport = ((row :: items, last), after) := by
  have hgoes : stops true row = false := by simp [stops, hok]
  have hdrain : cursor.drain true (patience + 1) =
      (next.drain true patience).andThen fun rest => .done (row :: rest.1, rest.2) := by
    rw [drain, hstep]
    simp only [hgoes, Bool.false_eq_true, if_false]
    rfl
  rw [hdrain, Exchange.run_andThen, hrest]
  rfl

theorem run_drain_of_batch {request : Request} {reply : Answer} {batch : Batch}
    (hstep : cursor.step = .fetch request next)
    (hanswer : answer transport request = (reply, after)) (hbatch : batchOf reply = .ok batch) :
    (cursor.drain true (patience + 1)).run answer transport =
      ((next.absorb batch).drain true patience).run answer after := by
  rw [drain, hstep]
  simp only [Exchange.run, hanswer, receive, hbatch]

theorem run_drain_of_finished (hstep : cursor.step = .finished next) :
    (cursor.drain true (patience + 1)).run answer transport = (([], next), transport) := by
  rw [drain, hstep]
  rfl

/-- The rows that a cursor holds are handed out before anything is asked. -/
theorem run_drain_of_buffered {rows : List Json} (hrows : cursor.rows = rows)
    (hok : ∀ row ∈ rows, (cursor.decode row).isOk)
    (hrest : ({ cursor with rows := [] }.drain true patience).run answer transport =
      ((items, last), after)) :
    (cursor.drain true (rows.length + patience)).run answer transport =
      ((rows.map cursor.decode ++ items, last), after) := by
  induction rows generalizing cursor with
  | nil =>
      have hempty : { cursor with rows := [] } = cursor := by rw [← hrows]
      rw [hempty] at hrest
      simpa using hrest
  | cons row rows ih =>
      obtain ⟨hrow, hok⟩ := List.forall_mem_cons.1 hok
      have hstep : cursor.step = .row (cursor.decode row) { cursor with rows } := by
        rw [step, hrows]
      rw [List.length_cons, Nat.add_right_comm]
      exact run_drain_of_row hstep hrow (ih rfl hok hrest)

structure Asks (cursor next : Cursor α) (database : String) (request : Request) : Prop where
  step : cursor.step = .fetch request next
  initial : next.initial = none
  rows : next.rows = []
  isDone : next.isDone = false
  database : next.database = database

def passed (cursor : Cursor α) (batch : Batch) : Cursor α :=
  { cursor.absorb batch with rows := [] }

theorem run_drain_of_asks {database : String} {request : Request} {reply : Answer} {batch : Batch}
    {between : σ} (hasks : cursor.Asks next database request)
    (hanswer : answer transport request = (reply, between)) (hbatch : batchOf reply = .ok batch)
    (hok : ∀ row ∈ batch.rows, (next.decode row).isOk)
    (hrest : ((next.passed batch).drain true patience).run answer between =
      ((items, last), after)) :
    (cursor.drain true (batch.rows.length + patience + 1)).run answer transport =
      ((batch.rows.map next.decode ++ items, last), after) := by
  have hrows : (next.absorb batch).rows = batch.rows := by simp [absorb, hasks.rows]
  rw [run_drain_of_batch hasks.step hanswer hbatch]
  exact run_drain_of_buffered hrows hok hrest

/-- A cursor hands out just the rows that are delivered. -/
theorem run_drain_of_delivers {database : String} {request : Request} {rows : List Json}
    {fullCount : Option UInt64}
    (hdelivers : Delivers answer database transport request rows fullCount after)
    (hasks : cursor.Asks next database request)
    (hok : ∀ row ∈ rows, (next.decode row).isOk) :
    ∃ bound last, last.fullCount = fullCount.or next.fullCount ∧ ∀ patience ≥ bound,
      (cursor.drain true patience).run answer transport =
        ((rows.map next.decode, last), after) := by
  -- Between two batches the cursor holds nothing, so it asks again as it did at first.
  induction hdelivers generalizing cursor next with
  | @last transport after request reply batch hanswer hbatch hmore =>
      have hend : (next.passed batch).step =
          .finished { next.passed batch with isDone := true } := by
        simp [passed, step, absorb, hasks.initial, hasks.isDone, hmore]
      refine ⟨batch.rows.length + 2, { next.passed batch with isDone := true }, rfl,
        fun patience hpatience => ?_⟩
      obtain ⟨spare, rfl⟩ := Nat.exists_eq_add_of_le hpatience
      have hfinished : ((next.passed batch).drain true (spare + 1)).run answer after =
          (([], { next.passed batch with isDone := true }), after) := run_drain_of_finished hend
      have hdrained := run_drain_of_asks hasks hanswer hbatch hok hfinished
      rw [List.append_nil] at hdrained
      rwa [show batch.rows.length + 2 + spare = batch.rows.length + (spare + 1) + 1 by omega]
  | @more transport between after request reply batch id rows fullCount hanswer hbatch hmore hid
      hrest ih =>
      obtain ⟨hbatchOk, hrowsOk⟩ := List.forall_mem_append.1 hok
      have hnext : (next.passed batch).Asks (next.passed batch) database
          (.plain .put (Http.apiPath database ["cursor", id])) := by
        refine ⟨?_, hasks.initial, rfl, hasks.isDone, hasks.database⟩
        simp [passed, step, absorb, hasks.initial, hasks.isDone, hmore, hid, path, hasks.database]
      obtain ⟨bound, last, hcount, hdrain⟩ := ih hnext hrowsOk
      refine ⟨batch.rows.length + bound + 1, last, ?_, fun patience hpatience => ?_⟩
      · rw [hcount, Option.or_assoc]
        rfl
      · obtain ⟨spare, rfl⟩ := Nat.exists_eq_add_of_le hpatience
        have hdrained := run_drain_of_asks hasks hanswer hbatch hbatchOk
          (hdrain (bound + spare) (Nat.le_add_right ..))
        rw [List.map_append, show batch.rows.length + bound + 1 + spare =
          batch.rows.length + (bound + spare) + 1 by omega]
        exact hdrained

end Cursor

end DocGraph
