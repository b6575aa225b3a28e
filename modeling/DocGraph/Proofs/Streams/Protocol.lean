import DocGraph.Proofs.Streams.History
/-!
# The protocol of a cursor

A cursor is polled, and whatever it asks is answered sooner or later, with anything or with a
failure.  Whatever comes, its history is lawful.  One invariant ties a cursor to its history
(`Session.Sound`); a poll and an answer both keep it.
-/

namespace DocGraph

namespace Cursor

variable {α σ : Type}

/-! ## Sessions -/

/-- A cursor with its history.  It may have a request that is not answered yet. -/
structure Session (α : Type) where
  cursor : Cursor α
  isPending : Bool
  history : History α

/-- What may happen to a cursor: a poll, or that a poll finds the answer that it waits for. -/
inductive Input where
  | poll
  | answer (answer : Answer)

def Input.isPoll : Input → Bool
  | poll => true
  | answer _ => false

namespace Session

def start (cursor : Cursor α) : Session α := ⟨cursor, false, []⟩

def proceed (cursor : Cursor α) (history : History α) : Session α :=
  match cursor.step with
  | .row item cursor => ⟨cursor, false, history ++ [.brought (some item)]⟩
  | .fetch request cursor => ⟨cursor, true, history ++ [.asked request]⟩
  | .finished cursor => ⟨cursor, false, history ++ [.brought none]⟩

/-- The answer to what the cursor asked: a failure is handed out, and with a batch the poll goes
on. -/
def hear (cursor : Cursor α) (history : History α) (answer : Answer) : Session α :=
  match cursor.receive answer with
  | (some error, cursor) => ⟨cursor, false,
      history ++ [.answered answer] ++ [.brought (some (.error error))]⟩
  | (none, cursor) => proceed cursor (history ++ [.answered answer])

/-- While a cursor waits for an answer a poll does nothing, and else there is none to come. -/
def feed (session : Session α) : Input → Session α
  | .poll => if session.isPending then session else proceed session.cursor session.history
  | .answer answer =>
    if session.isPending then hear session.cursor session.history answer else session

def run (session : Session α) (inputs : List Input) : Session α := inputs.foldl feed session

end Session

/-! ## Polls over a transport -/

def noted (answer : σ → Request → Answer × σ) (transport : σ × List (Request × Answer))
    (request : Request) : Answer × (σ × List (Request × Answer)) :=
  let (reply, after) := answer transport.1 request
  (reply, (after, transport.2 ++ [(request, reply)]))

def Poll.item? : Poll α → Option (Except Error α)
  | .item given => some given
  | .finished | .waiting => none

theorem run_next_eq_session (answer : σ → Request → Answer × σ) (patience : Nat)
    (cursor : Cursor α) (transport : σ) (earlier : List (Request × Answer))
    (history : History α) :
    let outcome := (cursor.next patience).run (noted answer) (transport, earlier)
    outcome.1.1 = .waiting ∨ ∃ exchanged, outcome.2.2 = earlier ++ exchanged ∧
      (Session.proceed cursor history).run (exchanged.map fun exchange => .answer exchange.2) =
        ⟨outcome.1.2, false,
          history ++ exchanged.flatMap (fun exchange => [.asked exchange.1, .answered exchange.2])
            ++ [.brought outcome.1.1.item?]⟩ := by
  fun_induction Cursor.next patience cursor generalizing transport earlier history with
  | case1 patience cursor item after hstep =>
      refine .inr ⟨[], by simp [Exchange.run], ?_⟩
      simp [Session.proceed, hstep, Session.run, Exchange.run, Poll.item?]
  | case2 patience cursor after hstep =>
      refine .inr ⟨[], by simp [Exchange.run], ?_⟩
      simp [Session.proceed, hstep, Session.run, Exchange.run, Poll.item?]
  | case3 cursor request after hstep => exact .inl rfl
  | case4 cursor request after hstep patience ih =>
      simp only [Exchange.run, noted]
      generalize answer transport request = outcome
      obtain ⟨reply, between⟩ := outcome
      cases hreceive : after.receive reply with
      | mk failure? heard =>
          cases failure? with
          | some error =>
              refine .inr ⟨[(request, reply)], rfl, ?_⟩
              simp [Session.proceed, hstep, Session.run, Session.feed, Session.hear, hreceive,
                Exchange.run, Poll.item?]
          | none =>
              let next := history ++ [.asked request] ++ [.answered reply]
              have hgoes : (Session.proceed cursor history).feed (.answer reply) =
                  Session.proceed heard next := by
                simp only [Session.proceed, hstep, Session.feed, Session.hear, hreceive]
                rfl
              refine (ih heard between (earlier ++ [(request, reply)]) next).imp_right ?_
              rintro ⟨exchanged, hexchanged, hrun⟩
              refine ⟨(request, reply) :: exchanged, ?_, ?_⟩
              · rw [hexchanged, List.append_assoc, List.singleton_append]
              · rw [← hgoes] at hrun
                refine hrun.trans ?_
                simp [next]

/-! ## What the cursor knows of its history -/

variable {database : String} {opening : Request} {decode : Json → Except Error α}
  {cursor : Cursor α} {history : History α} {failure? : Option Error} {event : Event α}

/-- The counts are those of the latest batch that had any. -/
structure Knows (database : String) (decode : Json → Except Error α) (cursor : Cursor α)
    (history : History α) (failure? : Option Error) : Prop where
  database : cursor.database = database
  follows : Follows decode cursor history.answers history.items history.batches failure?
  atEnd : cursor.isDone = true ↔ history.Over
  count : cursor.count = (history.batches.filterMap Batch.count).getLast?
  fullCount : cursor.fullCount = (history.batches.filterMap Batch.fullCount).getLast?

theorem Follows.failures_eq (h : Follows decode cursor history.answers history.items
    history.batches failure?) : history.failures = failure?.toList := by
  have hfailure : (Event.failure? : Event α → Option Error) = fun event =>
      event.answer?.bind fun answer => failureOf (batchOf answer) := by
    funext event
    cases event <;> rfl
  have hcame := congrArg (List.filterMap failureOf) h.came
  have hnone : history.batches.filterMap (fun _ => (none : Option Error)) = [] := by simp
  rw [List.filterMap_map, List.filterMap_append, List.filterMap_map, List.filterMap_map,
    History.answers, List.filterMap_filterMap] at hcame
  rw [History.failures, hfailure]
  simpa [-Event.answer?, Function.comp_def, hnone] using hcame

theorem Knows.exhausted (h : Knows database decode cursor history failure?)
    (hrows : cursor.rows = []) (hopen : cursor.isDone = false) : history.Exhausted decode := by
  obtain rfl := h.follows.failure?_eq_none hopen
  have hgiven := h.follows.given
  rw [hrows] at hgiven
  simpa [History.Exhausted, History.rows] using hgiven

theorem Knows.not_over (h : Knows database decode cursor history failure?)
    (hopen : cursor.isDone = false) : ¬history.Over := fun hover =>
  absurd (hopen.symm.trans (h.atEnd.2 hover)) Bool.false_ne_true

/-! ### What happens next -/

theorem knows_new (database : String) (request : Request) (decode : Json → Except Error α) :
    Knows database decode (new database request decode) [] none where
  database := rfl
  follows := follows_new database request decode
  atEnd := by simp [new, History.Over, History.failures]
  count := rfl
  fullCount := rfl

theorem Knows.asked (h : Knows database decode cursor history failure?) (request : Request) :
    Knows database decode cursor (history ++ [.asked request]) failure? := by
  constructor
  · exact h.database
  · simpa using h.follows
  · simpa [History.over_concat] using h.atEnd
  · simpa using h.count
  · simpa using h.fullCount

theorem Knows.row (h : Knows database decode cursor history failure?) {row : Json}
    {rows : List Json} (hrows : cursor.rows = row :: rows) :
    Knows database decode { cursor with rows }
      (history ++ [.brought (some (cursor.decode row))]) failure? := by
  constructor
  · exact h.database
  · simpa using h.follows.row hrows
  · simpa [History.over_concat] using h.atEnd
  · simpa using h.count
  · simpa using h.fullCount

theorem Knows.finish (h : Knows database decode cursor history failure?)
    (hrows : cursor.rows = [])
    (hover : cursor.isDone = true ∨
      cursor.initial = none ∧ (cursor.hasMore = true → cursor.id = none)) :
    Knows database decode { cursor with isDone := true } (history ++ [.brought none])
      failure? := by
  constructor
  · exact h.database
  · simpa using h.follows.finish hrows hover
  · simp [History.over_concat]
  · simpa using h.count
  · simpa using h.fullCount

theorem Knows.batch (h : Knows database decode cursor history none)
    (hopen : cursor.isDone = false) {answer : Answer} {batch : Batch}
    (hbatch : batchOf answer = .ok batch) :
    Knows database decode ({ cursor with initial := none }.absorb batch)
      (history ++ [.answered answer]) none := by
  have hnot := h.not_over hopen
  constructor
  · exact h.database
  · simpa [hbatch, Except.toOption] using h.follows.batch hopen hbatch
  · simp [absorb, History.over_concat, hopen, hnot, hbatch]
  · cases hcount : batch.count <;> simp [absorb, hbatch, Except.toOption, hcount, h.count]
  · cases hcount : batch.fullCount <;>
      simp [absorb, hbatch, Except.toOption, hcount, h.fullCount]

theorem Knows.failure (h : Knows database decode cursor history none)
    (hrows : cursor.rows = []) {answer : Answer} {error : Error}
    (herror : batchOf answer = .error error) :
    Knows database decode { cursor with initial := none, isDone := true }
      (history ++ [.answered answer] ++ [.brought (some (.error error))]) (some error) := by
  constructor
  · exact h.database
  · simpa [-List.append_assoc, herror, Except.toOption] using h.follows.failure hrows herror
  · simp [-List.append_assoc, History.over_concat, herror]
  · simpa [-List.append_assoc, herror, Except.toOption] using h.count
  · simpa [-List.append_assoc, herror, Except.toOption] using h.fullCount

/-! ## One step of a session -/

/-- Between two requests the cursor waits for nothing, and only at the start it has a request that
is not sent yet. -/
structure Rests (database : String) (opening : Request) (decode : Json → Except Error α)
    (cursor : Cursor α) (history : History α) : Prop where
  knows : ∃ failure?, Knows database decode cursor history failure?
  initial : (history = [] ∧ cursor.initial = some opening) ∨
    (history ≠ [] ∧ cursor.initial = none)
  answered : history.requests.length = history.answers.length

structure Waits (database : String) (decode : Json → Except Error α) (cursor : Cursor α)
    (history : History α) : Prop where
  knows : Knows database decode cursor history none
  rows : cursor.rows = []
  isOpen : cursor.isDone = false
  asked : history.requests.length = history.answers.length + 1

/-- The invariant of a session.  A cursor that waits has sent what it had to send at first. -/
structure Session.Sound (database : String) (opening : Request)
    (decode : Json → Except Error α) (session : Session α) : Prop where
  lawful : Lawful database opening decode session.history
  stands : (session.isPending = false ∧
      Rests database opening decode session.cursor session.history) ∨
    ∃ cursor, session.isPending = true ∧ session.cursor = { cursor with initial := none } ∧
      Waits database decode cursor session.history

theorem rests_new (database : String) (opening : Request) (decode : Json → Except Error α) :
    Rests database opening decode (new database opening decode) [] where
  knows := ⟨none, knows_new database opening decode⟩
  initial := .inl ⟨rfl, rfl⟩
  answered := rfl

theorem step_fetch {request : Request} {after : Cursor α} (h : cursor.step = .fetch request after) :
    cursor.initial = some request ∨ cursor.initial = none ∧ cursor.hasMore = true ∧
      ∃ id, cursor.id = some id ∧ request = .plain .put (cursor.path id) := by
  obtain ⟨database, decode, initial, rows, id, hasMore, isDone, count, fullCount⟩ := cursor
  cases rows with
  | cons row rows => cases h
  | nil =>
      cases isDone with
      | true => cases h
      | false =>
          match initial, hasMore, id with
          | some request, _, _ => cases h; exact .inl rfl
          | none, false, _ => cases h
          | none, true, some id => cases h; exact .inr ⟨rfl, rfl, id, rfl, rfl⟩
          | none, true, none => cases h

theorem step_of_over (hrows : cursor.rows = []) (hdone : cursor.isDone = true) :
    cursor.step = .finished cursor := by
  rw [step, hrows]
  exact if_pos hdone

theorem Rests.allows_request (h : Rests database opening decode cursor history)
    {request : Request} {after : Cursor α} (hstep : cursor.step = .fetch request after) :
    Allowed database opening decode history (.asked request) := by
  obtain ⟨failure?, hknows⟩ := h.knows
  obtain _ | ⟨_, hrows, hopen⟩ : cursor.Steps (.fetch request after) := hstep ▸ cursor.steps_step
  rcases step_fetch hstep with hunsent | ⟨hsent, hmore, id, hid, rfl⟩
  · rcases h.initial with ⟨hbefore, hinitial⟩ | ⟨-, hinitial⟩
    · obtain rfl := Option.some.inj (hinitial.symm.trans hunsent)
      exact .opens hbefore
    · cases hinitial.symm.trans hunsent
  · obtain ⟨last, hlast, hlastMore, hlastId⟩ :=
      hknows.follows.last hsent (hknows.follows.failure?_eq_none hopen)
    rw [hmore] at hlastMore
    rw [← hlastMore, hid, if_pos rfl] at hlastId
    rw [path, hknows.database]
    exact .continues (hknows.not_over hopen) h.answered (hknows.exhausted hrows hopen) hlast
      hlastMore.symm hlastId.symm

theorem Knows.allows_row (h : Knows database decode cursor history failure?) {row : Json}
    {rows : List Json} (hrows : cursor.rows = row :: rows) :
    Allowed database opening decode history (.brought (some (cursor.decode row))) := by
  have hopen : cursor.isDone = false := by
    refine Bool.eq_false_iff.2 fun hdone => ?_
    rw [(h.follows.done hdone).1] at hrows
    cases hrows
  refine .row (h.not_over hopen) ⟨rows.map decode, ?_⟩
  have hgiven := h.follows.given
  rw [hrows, h.follows.failure?_eq_none hopen] at hgiven
  simpa [h.follows.decodes, History.rows] using hgiven

theorem Rests.allows_finished (h : Rests database opening decode cursor history)
    (hrows : cursor.rows = [])
    (hover : cursor.isDone = true ∨
      cursor.initial = none ∧ (cursor.hasMore = true → cursor.id = none)) :
    Allowed database opening decode history (.brought none) := by
  obtain ⟨failure?, hknows⟩ := h.knows
  refine .finished ?_
  cases hopen : cursor.isDone with
  | true => exact .inl (hknows.atEnd.1 hopen)
  | false =>
      rcases hover with hdone | ⟨hsent, hend⟩
      · exact absurd (hopen.symm.trans hdone) Bool.false_ne_true
      · obtain ⟨last, hlast, hmore, hid⟩ :=
          hknows.follows.last hsent (hknows.follows.failure?_eq_none hopen)
        refine .inr ⟨hknows.exhausted hrows hopen, last, hlast, ?_⟩
        cases hhas : last.hasMore with
        | false => exact .inl rfl
        | true =>
            rw [hhas] at hmore hid
            exact .inr (hid.symm.trans (hend hmore))

theorem Rests.initial_eq_none (h : Rests database opening decode cursor history)
    (hstarted : cursor.rows ≠ [] ∨ cursor.isDone = true) : cursor.initial = none := by
  rcases h.initial with ⟨rfl, -⟩ | ⟨-, hsent⟩
  · obtain ⟨failure?, hknows⟩ := h.knows
    rcases hstarted with hrows | hdone
    · have hgiven := hknows.follows.given
      simp [History.items, History.batches, hrows, ← hknows.follows.failures_eq,
        History.failures] at hgiven
    · simpa [History.Over, History.failures] using hknows.atEnd.1 hdone
  · exact hsent

theorem Rests.proceed (h : Rests database opening decode cursor history)
    (hlawful : Lawful database opening decode history) :
    (Session.proceed cursor history).Sound database opening decode := by
  obtain ⟨failure?, hknows⟩ := h.knows
  unfold Session.proceed
  cases hstep : cursor.step with
  | row item after =>
      obtain ⟨hrows⟩ : cursor.Steps (.row item after) := hstep ▸ cursor.steps_step
      refine ⟨hlawful.concat (hknows.allows_row hrows), .inl ⟨rfl, ?_⟩⟩
      exact {
        knows := ⟨failure?, hknows.row hrows⟩
        initial := .inr ⟨by simp, h.initial_eq_none (.inl (by simp [hrows]))⟩
        answered := by simpa using h.answered }
  | fetch request after =>
      refine ⟨hlawful.concat (h.allows_request hstep), .inr ⟨cursor, rfl, ?_⟩⟩
      obtain _ | ⟨_, hrows, hopen⟩ : cursor.Steps (.fetch request after) :=
        hstep ▸ cursor.steps_step
      obtain rfl := hknows.follows.failure?_eq_none hopen
      exact ⟨rfl, hknows.asked request, hrows, hopen, by simp [h.answered]⟩
  | finished after =>
      obtain _ | _ | ⟨hrows, hover⟩ : cursor.Steps (.finished after) := hstep ▸ cursor.steps_step
      refine ⟨hlawful.concat (h.allows_finished hrows hover), .inl ⟨rfl, ?_⟩⟩
      exact {
        knows := ⟨failure?, hknows.finish hrows hover⟩
        initial := .inr ⟨by simp, hover.elim (fun hdone => h.initial_eq_none (.inr hdone)) And.left⟩
        answered := by simpa using h.answered }

theorem Waits.hear (h : Waits database decode cursor history)
    (hlawful : Lawful database opening decode history) (answer : Answer) :
    (Session.hear { cursor with initial := none } history answer).Sound database opening
      decode := by
  have hanswered := hlawful.concat (.answered answer h.asked)
  unfold Session.hear
  rw [receive]
  cases hanswer : batchOf answer with
  | ok batch =>
      refine Rests.proceed ?_ hanswered
      exact {
        knows := ⟨none, h.knows.batch h.isOpen hanswer⟩
        initial := .inr ⟨by simp, rfl⟩
        answered := by simp [h.asked] }
  | error error =>
      have hfailure := hanswered.concat (.failure rfl hanswer (h.knows.exhausted h.rows h.isOpen))
      refine ⟨hfailure, .inl ⟨rfl, ?_⟩⟩
      exact {
        knows := ⟨some error, h.knows.failure h.rows hanswer⟩
        initial := .inr ⟨by simp, rfl⟩
        answered := by simp [-List.append_assoc, h.asked] }

/-! ## Whole sessions -/

namespace Session

variable {session : Session α}

theorem sound_start (database : String) (opening : Request) (decode : Json → Except Error α) :
    (start (new database opening decode)).Sound database opening decode where
  lawful := by
    intro before event after hsplit
    cases before <;> cases hsplit
  stands := .inl ⟨rfl, rests_new database opening decode⟩

theorem Sound.feed (h : session.Sound database opening decode) (input : Input) :
    (session.feed input).Sound database opening decode := by
  obtain ⟨cursor, isPending, history⟩ := session
  obtain ⟨hlawful, ⟨rfl, hrests⟩ | ⟨cursor, rfl, rfl, hwaits⟩⟩ := h
  · cases input with
    | poll => exact hrests.proceed hlawful
    | answer answer => exact ⟨hlawful, .inl ⟨rfl, hrests⟩⟩
  · cases input with
    | poll => exact ⟨hlawful, .inr ⟨cursor, rfl, rfl, hwaits⟩⟩
    | answer answer => exact hwaits.hear hlawful answer

theorem Sound.run (h : session.Sound database opening decode) (inputs : List Input) :
    (session.run inputs).Sound database opening decode := by
  induction inputs generalizing session with
  | nil => exact h
  | cons input inputs ih => exact ih (h.feed input)

/-- The cursor of a session knows its history, but it may have forgotten what it sent at first. -/
theorem Sound.knows (h : session.Sound database opening decode) :
    ∃ cursor failure?, Knows database decode cursor session.history failure? ∧
      session.cursor = { cursor with initial := session.cursor.initial } := by
  obtain ⟨-, ⟨-, hrests⟩ | ⟨cursor, -, hcursor, hwaits⟩⟩ := h
  · obtain ⟨failure?, hknows⟩ := hrests.knows
    exact ⟨session.cursor, failure?, hknows, rfl⟩
  · exact ⟨cursor, none, hwaits.knows, by rw [hcursor]⟩

/-- What came and was not handed out is what the cursor has buffered. -/
theorem Sound.given (h : session.Sound database opening decode) :
    session.history.items ++ session.cursor.rows.map decode =
      session.history.rows.map decode ++ session.history.failures.map .error := by
  obtain ⟨cursor, failure?, hknows, hcursor⟩ := h.knows
  rw [hknows.follows.failures_eq, hcursor]
  exact hknows.follows.given

/-- A row that came and was not handed out yet is what the next poll brings, whether it can be
decoded or not. -/
theorem Sound.buffered (h : session.Sound database opening decode) {item : Except Error α}
    (hitem : (session.history.rows.map decode)[session.history.items.length]? = some item) :
    (session.feed .poll).history = session.history ++ [.brought (some item)] := by
  obtain ⟨hlength, -⟩ := List.getElem?_eq_some_iff.1 hitem
  have hnext : (session.cursor.rows.map decode)[0]? = some item := by
    rw [← hitem, ← List.getElem?_append_left hlength, ← h.given,
      List.getElem?_append_right (Nat.le_refl _), Nat.sub_self]
  cases hrows : session.cursor.rows with
  | nil => simp [hrows] at hnext
  | cons row rows =>
      rw [hrows] at hnext
      obtain rfl : decode row = item := Option.some.inj hnext
      obtain ⟨cursor, isPending, history⟩ := session
      obtain ⟨-, ⟨rfl, hrests⟩ | ⟨cursor, rfl, rfl, hwaits⟩⟩ := h
      · obtain ⟨failure?, hknows⟩ := hrests.knows
        have hstep : cursor.step = .row (decode row) { cursor with rows } := by
          rw [step, hrows, hknows.follows.decodes]
        exact congrArg Session.history (by rw [proceed, hstep] :
          proceed cursor history = ⟨{ cursor with rows }, false, _⟩)
      · cases hwaits.rows.symm.trans hrows

/-- A session that is over waits for nothing, and all that it brings is that it is over. -/
theorem Sound.atEnd (h : session.Sound database opening decode) (hover : session.history.Over)
    (inputs : List Input) : (session.run inputs).history =
      session.history ++ List.replicate (inputs.countP Input.isPoll) (.brought none) := by
  induction inputs generalizing session with
  | nil => simp [Session.run]
  | cons input inputs ih =>
      obtain ⟨cursor, isPending, history⟩ := session
      have hnext := h.feed input
      obtain ⟨-, ⟨rfl, hrests⟩ | ⟨cursor, rfl, rfl, hwaits⟩⟩ := h
      · obtain ⟨failure?, hknows⟩ := hrests.knows
        have hdone := hknows.atEnd.2 hover
        have hproceed : Session.proceed cursor history =
            ⟨cursor, false, history ++ [.brought none]⟩ := by
          rw [Session.proceed, step_of_over (hknows.follows.done hdone).1 hdone]
        cases input with
        | poll =>
            have hover' : (proceed cursor history).history.Over := by
              rw [hproceed]
              exact (History.over_concat ..).2 (.inl hover)
            have hrest : ((proceed cursor history).run inputs).history =
                (proceed cursor history).history ++
                  List.replicate (inputs.countP Input.isPoll) (.brought none) := ih hnext hover'
            calc ((Session.mk cursor false history).run (.poll :: inputs)).history
                = ((proceed cursor history).run inputs).history := rfl
              _ = history ++ [.brought none] ++
                    List.replicate (inputs.countP Input.isPoll) (.brought none) := by
                  rw [hrest, hproceed]
              _ = _ := by rw [List.countP_cons_of_pos rfl, List.replicate_succ]; simp
        | answer answer => exact ih hnext hover
      · exact absurd hover (hwaits.knows.not_over hwaits.isOpen)

theorem history_proceed (cursor : Cursor α) (history : History α) :
    ∃ event, (proceed cursor history).history = history ++ [event] := by
  unfold proceed
  cases cursor.step <;> exact ⟨_, rfl⟩

theorem history_hear (cursor : Cursor α) (history : History α) (answer : Answer) :
    ∃ event, (hear cursor history answer).history = history ++ [.answered answer] ++ [event] := by
  unfold hear
  split
  · exact ⟨_, rfl⟩
  · exact history_proceed ..

theorem Sound.history_feed (h : session.Sound database opening decode) (input : Input) :
    (session.feed input).history = [] ↔ session.history = [] ∧ input.isPoll = false := by
  obtain ⟨cursor, isPending, history⟩ := session
  obtain ⟨-, ⟨rfl, -⟩ | ⟨cursor, rfl, rfl, hwaits⟩⟩ := h
  · cases input with
    | poll =>
        obtain ⟨event, hevent⟩ := history_proceed cursor history
        simp [Session.feed, hevent, Input.isPoll]
    | answer answer => simp [Session.feed, Input.isPoll]
  · have hbegun : history ≠ [] := by
      rintro rfl
      cases hwaits.asked
    cases input with
    | poll => simp [Session.feed, hbegun]
    | answer answer =>
        obtain ⟨event, hevent⟩ := history_hear { cursor with initial := none } history answer
        simp [Session.feed, hevent, hbegun]

theorem Sound.history_run (h : session.Sound database opening decode) (inputs : List Input) :
    (session.run inputs).history = [] ↔
      session.history = [] ∧ inputs.any Input.isPoll = false := by
  induction inputs generalizing session with
  | nil => simp [Session.run]
  | cons input inputs ih =>
      rw [List.any_cons, Bool.or_eq_false_iff, ← and_assoc, ← h.history_feed input]
      exact ih (h.feed input)

structure Obeys (database : String) (opening : Request) (decode : Json → Except Error α)
    (session : Session α) : Prop where
  lawful : Lawful database opening decode session.history
  inOrder : session.history.items <+:
    session.history.rows.map decode ++ session.history.failures.map .error
  buffered {item : Except Error α}
    (hitem : (session.history.rows.map decode)[session.history.items.length]? = some item) :
    (session.feed .poll).history = session.history ++ [.brought (some item)]
  atEnd (hover : session.history.Over) (inputs : List Input) : (session.run inputs).history =
    session.history ++ List.replicate (inputs.countP Input.isPoll) (.brought none)
  count : session.cursor.count = (session.history.batches.filterMap Batch.count).getLast?
  fullCount :
    session.cursor.fullCount = (session.history.batches.filterMap Batch.fullCount).getLast?

theorem Sound.obeys (h : session.Sound database opening decode) :
    session.Obeys database opening decode where
  lawful := h.lawful
  inOrder := ⟨session.cursor.rows.map decode, h.given⟩
  buffered := h.buffered
  atEnd := h.atEnd
  count := by
    obtain ⟨cursor, failure?, hknows, hcursor⟩ := h.knows
    rw [hcursor]
    exact hknows.count
  fullCount := by
    obtain ⟨cursor, failure?, hknows, hcursor⟩ := h.knows
    rw [hcursor]
    exact hknows.fullCount

/-- Whatever answers come and whenever it is polled, a cursor obeys the protocol.  With the first
poll it sends the opening request. -/
theorem obeys_run (database : String) (opening : Request) (decode : Json → Except Error α)
    (inputs : List Input) :
    let session := (start (new database opening decode)).run inputs
    session.Obeys database opening decode ∧
      session.history.head? =
        if inputs.any Input.isPoll then some (.asked opening) else none := by
  have hsound := (sound_start database opening decode).run inputs
  refine ⟨hsound.obeys, ?_⟩
  have hbegun := (sound_start database opening decode).history_run inputs
  cases hpolled : inputs.any Input.isPoll with
  | true => exact hsound.lawful.head? (by simp [hbegun, hpolled])
  | false => simp [hbegun.2 ⟨rfl, hpolled⟩]

end Session

end Cursor

end DocGraph
