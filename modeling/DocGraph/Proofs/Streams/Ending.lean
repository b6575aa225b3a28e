import DocGraph.Client.Cursor
import DocGraph.Transport.Basic
/-!
# How a stream of rows ends

A cursor is polled over some transport, whatever that answers.  When a poll finds nothing more,
every row of every batch that came has been handed out, and the error of the request that failed, if
one did.  Otherwise the last batch said that there is no more, or it named no cursor to ask for
more.
-/

namespace DocGraph

namespace Cursor

variable {α σ : Type}

/-! ## Polls over a transport -/

def recorded (answer : σ → Request → Answer × σ) (transport : σ × List Answer)
    (request : Request) : Answer × (σ × List Answer) :=
  let (reply, after) := answer transport.1 request
  (reply, (after, transport.2 ++ [reply]))

/-- A cursor with the transport that it is read over, the answers that came, and what its polls have
brought. -/
structure Reading (α σ : Type) where
  cursor : Cursor α
  transport : σ
  answers : List Answer
  polls : List (Poll α)

namespace Reading

def start (cursor : Cursor α) (transport : σ) : Reading α σ := ⟨cursor, transport, [], []⟩

/-- A poll may ask `spare` requests more than the one that it needs. -/
def poll (answer : σ → Request → Answer × σ) (reading : Reading α σ) (spare : Nat) :
    Reading α σ :=
  let ((poll, cursor), (transport, answers)) :=
    (reading.cursor.next (spare + 1)).run (recorded answer) (reading.transport, reading.answers)
  ⟨cursor, transport, answers, reading.polls ++ [poll]⟩

def run (answer : σ → Request → Answer × σ) (reading : Reading α σ) (spares : List Nat) :
    Reading α σ :=
  spares.foldl (poll answer) reading

end Reading

def Poll.items : Poll α → List (Except Error α)
  | .item given => [given]
  | .finished => []
  | .waiting => []

/-! ## One step -/

/-- A cursor hands out a row that it has buffered.  Without one it asks for a batch, or it is over:
it was so before, or it has asked and knows of no more or of no cursor to ask for more. -/
inductive Steps (cursor : Cursor α) : Step α → Prop where
  | row {row : Json} {rows : List Json} (hrows : cursor.rows = row :: rows) :
      Steps cursor (.row (cursor.decode row) { cursor with rows })
  | fetch (request : Request) (hrows : cursor.rows = []) (hopen : cursor.isDone = false) :
      Steps cursor (.fetch request { cursor with initial := none })
  | finished (hrows : cursor.rows = [])
      (hover : cursor.isDone = true ∨
        cursor.initial = none ∧ (cursor.hasMore = true → cursor.id = none)) :
      Steps cursor (.finished { cursor with isDone := true })

theorem steps_step (cursor : Cursor α) : cursor.Steps cursor.step := by
  obtain ⟨database, decode, initial, rows, id, hasMore, isDone, count, fullCount⟩ := cursor
  cases rows with
  | cons row rows => exact .row rfl
  | nil =>
      cases isDone with
      | true => exact .finished rfl (.inl rfl)
      | false =>
          match initial, hasMore, id with
          | some request, _, _ => exact .fetch request rfl rfl
          | none, false, _ => exact .finished rfl (.inr ⟨rfl, nofun⟩)
          | none, true, some id => exact .fetch _ rfl rfl
          | none, true, none => exact .finished rfl (.inr ⟨rfl, fun _ => rfl⟩)

/-! ## What has come and what was handed out -/

/-- Batches came, and then at most one failure.  What was handed out is a part of their rows, the
rest of which the cursor keeps. -/
structure Follows (decode : Json → Except Error α) (cursor : Cursor α) (answers : List Answer)
    (items : List (Except Error α)) (batches : List Batch) (failure? : Option Error) : Prop where
  decodes : cursor.decode = decode
  came : answers.map batchOf = batches.map .ok ++ failure?.toList.map .error
  given : items ++ cursor.rows.map decode
    = (batches.flatMap Batch.rows).map decode ++ failure?.toList.map .error
  unsent : cursor.initial.isSome → cursor.isDone = false
  last : cursor.initial = none → failure? = none → ∃ last, batches.getLast? = some last ∧
    cursor.hasMore = last.hasMore ∧ cursor.id = if last.hasMore then last.id else none
  failed : failure?.isSome → cursor.isDone = true
  done : cursor.isDone = true → cursor.rows = [] ∧
    (failure? = none → cursor.hasMore = true → cursor.id = none)

variable {decode : Json → Except Error α} {cursor : Cursor α} {answers : List Answer}
  {items : List (Except Error α)} {batches : List Batch} {failure? : Option Error}

theorem follows_new (database : String) (request : Request) (decode : Json → Except Error α) :
    Follows decode (new database request decode) [] [] [] none := by
  constructor <;> simp [new]

theorem Follows.failure?_eq_none (h : Follows decode cursor answers items batches failure?)
    (hopen : cursor.isDone = false) : failure? = none := by
  cases hfailure : failure? with
  | none => rfl
  | some error => exact absurd (hopen.symm.trans (h.failed (by simp [hfailure]))) Bool.false_ne_true

theorem Follows.row (h : Follows decode cursor answers items batches failure?) {row : Json}
    {rows : List Json} (hrows : cursor.rows = row :: rows) :
    Follows decode { cursor with rows } answers (items ++ [cursor.decode row]) batches
      failure? where
  decodes := h.decodes
  came := h.came
  given := by
    have hgiven := h.given
    rw [hrows, List.map_cons] at hgiven
    rw [h.decodes, List.append_assoc]
    exact hgiven
  unsent := h.unsent
  last := h.last
  failed := h.failed
  done := by
    intro hdone
    have hempty := (h.done hdone).1
    rw [hrows] at hempty
    cases hempty

theorem Follows.finish (h : Follows decode cursor answers items batches failure?)
    (hrows : cursor.rows = [])
    (hover : cursor.isDone = true ∨
      cursor.initial = none ∧ (cursor.hasMore = true → cursor.id = none)) :
    Follows decode { cursor with isDone := true } answers items batches failure? where
  decodes := h.decodes
  came := h.came
  given := h.given
  unsent := by
    intro hunsent
    rcases hover with hdone | ⟨hsent, -⟩
    · exact absurd ((h.unsent hunsent).symm.trans hdone) Bool.false_ne_true
    · rw [hsent] at hunsent
      cases hunsent
  last := h.last
  failed := fun _ => rfl
  done := by
    rintro -
    refine ⟨hrows, fun hnone => ?_⟩
    rcases hover with hdone | ⟨-, hlast⟩
    · exact (h.done hdone).2 hnone
    · exact hlast

theorem Follows.batch (h : Follows decode cursor answers items batches none)
    (hopen : cursor.isDone = false) {answer : Answer} {batch : Batch}
    (hbatch : batchOf answer = .ok batch) :
    Follows decode ({ cursor with initial := none }.absorb batch) (answers ++ [answer]) items
      (batches ++ [batch]) none where
  decodes := h.decodes
  came := by simp [h.came, hbatch]
  given := by
    have hgiven := h.given
    simp only [Option.toList_none, List.map_nil, List.append_nil] at hgiven ⊢
    simp [absorb, ← hgiven]
  unsent := nofun
  last := fun _ _ => ⟨batch, List.getLast?_concat, rfl, rfl⟩
  failed := nofun
  done := fun hdone => absurd (hopen.symm.trans hdone) Bool.false_ne_true

theorem Follows.failure (h : Follows decode cursor answers items batches none)
    (hrows : cursor.rows = []) {answer : Answer} {error : Error}
    (herror : batchOf answer = .error error) :
    Follows decode { cursor with initial := none, isDone := true } (answers ++ [answer])
      (items ++ [.error error]) batches (some error) where
  decodes := h.decodes
  came := by simp [h.came, herror]
  given := by
    have hgiven := h.given
    simp only [hrows, Option.toList_none, List.map_nil, List.append_nil] at hgiven
    simp [hrows, hgiven]
  unsent := nofun
  last := nofun
  failed := fun _ => rfl
  done := fun _ => ⟨hrows, nofun⟩

/-- After a poll, what was handed out follows what came.  Only a cursor that is done finds nothing
more. -/
def Brings (decode : Json → Except Error α) (items : List (Except Error α)) (poll : Poll α)
    (cursor : Cursor α) (answers : List Answer) : Prop :=
  (∃ batches failure?, Follows decode cursor answers (items ++ poll.items) batches failure?) ∧
    (poll = .finished → cursor.isDone = true)

theorem Follows.next (answer : σ → Request → Answer × σ) (patience : Nat) (transport : σ)
    (h : Follows decode cursor answers items batches failure?)
    (hsent : cursor.initial = none ∨ 0 < patience) :
    let outcome := (cursor.next patience).run (recorded answer) (transport, answers)
    Brings decode items outcome.1.1 outcome.1.2 outcome.2.2 := by
  fun_induction Cursor.next patience cursor generalizing transport answers batches failure? with
  | case1 patience cursor item after hstep =>
      obtain ⟨hrows⟩ : cursor.Steps (.row item after) := hstep ▸ cursor.steps_step
      exact ⟨⟨batches, failure?, h.row hrows⟩, nofun⟩
  | case2 patience cursor after hstep =>
      obtain _ | _ | ⟨hrows, hover⟩ : cursor.Steps (.finished after) := hstep ▸ cursor.steps_step
      have hfinish := h.finish hrows hover
      rw [← List.append_nil items] at hfinish
      exact ⟨⟨batches, failure?, hfinish⟩, fun _ => rfl⟩
  | case3 cursor request after hstep =>
      obtain _ | ⟨_, hrows, hopen⟩ : cursor.Steps (.fetch request after) :=
        hstep ▸ cursor.steps_step
      have hnone : cursor.initial = none := hsent.resolve_right (Nat.lt_irrefl 0)
      have hsame : { cursor with initial := none } = cursor := by rw [← hnone]
      rw [← List.append_nil items, ← hsame] at h
      exact ⟨⟨batches, failure?, h⟩, nofun⟩
  | case4 cursor request after hstep patience ih =>
      -- A batch may be empty, so the poll goes on with what it left.
      obtain _ | ⟨_, hrows, hopen⟩ : cursor.Steps (.fetch request after) :=
        hstep ▸ cursor.steps_step
      obtain rfl := h.failure?_eq_none hopen
      simp only [Exchange.run, recorded, receive]
      cases hanswer : batchOf (answer transport request).1 with
      | ok batch => exact ih _ (answer transport request).2 (h.batch hopen hanswer) (.inl rfl)
      | error error => exact ⟨⟨batches, some error, h.failure hrows hanswer⟩, nofun⟩

/-! ## A whole reading -/

namespace Reading

def Sound (decode : Json → Except Error α) (reading : Reading α σ) : Prop :=
  (∃ batches failure?, Follows decode reading.cursor reading.answers
    (reading.polls.flatMap Poll.items) batches failure?) ∧
    (reading.polls.getLast? = some .finished → reading.cursor.isDone = true)

variable {reading : Reading α σ}

theorem Sound.poll (h : reading.Sound decode) (answer : σ → Request → Answer × σ) (spare : Nat) :
    (reading.poll answer spare).Sound decode := by
  obtain ⟨⟨batches, failure?, hfollows⟩, -⟩ := h
  obtain ⟨hmore, hfinished⟩ :=
    hfollows.next answer (spare + 1) reading.transport (.inr (Nat.succ_pos spare))
  constructor
  · simpa [Reading.poll, List.flatMap_append] using hmore
  · simpa [Reading.poll] using hfinished

theorem Sound.run (h : reading.Sound decode) (answer : σ → Request → Answer × σ)
    (spares : List Nat) : (reading.run answer spares).Sound decode := by
  induction spares generalizing reading with
  | nil => exact h
  | cons spare spares ih => exact ih (h.poll answer spare)

theorem sound_start (database : String) (request : Request) (transport : σ) :
    (start (new database request decode) transport).Sound decode :=
  ⟨⟨[], none, follows_new database request decode⟩, nofun⟩

/-- What came and was handed out when a reading ends with a poll that finds nothing more. -/
theorem ends_delivered (answer : σ → Request → Answer × σ) (transport : σ) (database : String)
    (request : Request) (decode : Json → Except Error α) (spares : List Nat)
    (h : ((start (new database request decode) transport).run answer spares).polls.getLast?
      = some .finished) :
    let reading := (start (new database request decode) transport).run answer spares
    ∃ (batches : List Batch) (failure? : Option Error),
      reading.answers.map batchOf = batches.map .ok ++ failure?.toList.map .error ∧
      reading.polls.flatMap Poll.items
        = (batches.flatMap Batch.rows).map decode ++ failure?.toList.map .error ∧
      (failure? = none → ∃ last, batches.getLast? = some last ∧
        (last.hasMore = false ∨ last.id = none)) := by
  obtain ⟨⟨batches, failure?, hfollows⟩, hfinished⟩ :=
    (sound_start database request transport).run answer spares
  have hdone := hfinished h
  obtain ⟨hrows, hover⟩ := hfollows.done hdone
  refine ⟨batches, failure?, hfollows.came, ?_, fun hnone => ?_⟩
  · have hgiven := hfollows.given
    rw [hrows, List.map_nil, List.append_nil] at hgiven
    exact hgiven
  · have hsent : _ = none := Option.not_isSome_iff_eq_none.1 fun hunsent =>
      absurd ((hfollows.unsent hunsent).symm.trans hdone) Bool.false_ne_true
    obtain ⟨last, hlast, hmore, hid⟩ := hfollows.last hsent hnone
    refine ⟨last, hlast, ?_⟩
    cases hhas : last.hasMore with
    | false => exact .inl rfl
    | true =>
        rw [hhas] at hmore hid
        exact .inr (hid.symm.trans (hover hnone hmore))

def oneRow (row : Nat) (rest : Json.Members) : Answer :=
  .ok ⟨200, .ofMembers (("result", .array [.ofNat row]) :: rest)⟩

def ofScript (answers : List Answer) : Reading Json Transport :=
  start (new "_system" (.plain .post (Http.apiPath "_system" ["cursor"])) .ok) (.ofScript answers)

/-- Three batches of which the second is empty; the poll that meets it may not ask again. -/
def tides : List Answer :=
  [oneRow 1 [("hasMore", .bool true), ("id", .string "7")],
    .ok ⟨200, .ofMembers [("hasMore", .bool true), ("id", .string "7")]⟩, oneRow 2 []]

theorem ends_delivered_tides :
    let reading := (ofScript tides).run Transport.execute [0, 0, 0, 0]
    reading.polls = [.item (.ok (.ofNat 1)), .waiting, .item (.ok (.ofNat 2)), .finished] ∧
    ∃ (batches : List Batch) (failure? : Option Error),
      reading.answers.map batchOf = batches.map .ok ++ failure?.toList.map .error ∧
      reading.polls.flatMap Poll.items
        = (batches.flatMap Batch.rows).map .ok ++ failure?.toList.map .error ∧
      (failure? = none → ∃ last, batches.getLast? = some last ∧
        (last.hasMore = false ∨ last.id = none)) :=
  ⟨by rfl, ends_delivered Transport.execute _ _ _ _ [0, 0, 0, 0] (by rfl)⟩

/-- A batch that says there is more but names no cursor ends the stream as if it were the last one,
be it the first batch or a later one. -/
theorem cut_short_without_id :
    let more : Json.Members := [("hasMore", .bool true)]
    let opened := (ofScript [oneRow 1 more]).run Transport.execute [0, 0]
    let continued := (ofScript [oneRow 1 (("id", .string "7") :: more), oneRow 2 more]).run
      Transport.execute [0, 0, 0]
    opened.polls = [.item (.ok (.ofNat 1)), .finished] ∧
    opened.answers.map batchOf = [.ok ⟨[.ofNat 1], true, none, none, none⟩] ∧
    continued.polls = [.item (.ok (.ofNat 1)), .item (.ok (.ofNat 2)), .finished] ∧
    continued.answers.map batchOf = [.ok ⟨[.ofNat 1], true, some "7", none, none⟩,
      .ok ⟨[.ofNat 2], true, none, none, none⟩] :=
  ⟨rfl, rfl, rfl, rfl⟩

end Reading

end Cursor

end DocGraph
