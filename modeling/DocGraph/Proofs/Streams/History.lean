import DocGraph.Proofs.Streams.Ending
/-!
# Histories of a cursor

The history of a cursor is what it asked, what answered it, and what its polls brought.  The
protocol of a cursor says which events a history allows next (`Allowed`); a history is lawful if the
events before it allow each of its events.
-/

namespace DocGraph

namespace Cursor

variable {α : Type}

/-! ## Histories -/

/-- What happens at a cursor.  A poll brings an item, or it finds that there are no more. -/
inductive Event (α : Type) where
  | asked (request : Request)
  | answered (answer : Answer)
  | brought (item? : Option (Except Error α))

@[simp] def failureOf : Except Error Batch → Option Error
  | .ok _ => none
  | .error error => some error

namespace Event

@[simp] def request? : Event α → Option Request
  | asked request => some request
  | answered _ | brought _ => none

@[simp] def answer? : Event α → Option Answer
  | answered answer => some answer
  | asked _ | brought _ => none

@[simp] def given? : Event α → Option (Except Error α)
  | brought item? => item?
  | asked _ | answered _ => none

@[simp] def batch? : Event α → Option Batch
  | answered answer => (batchOf answer).toOption
  | asked _ | brought _ => none

@[simp] def failure? : Event α → Option Error
  | answered answer => failureOf (batchOf answer)
  | asked _ | brought _ => none

end Event

abbrev History (α : Type) := List (Event α)

namespace History

def requests (history : History α) : List Request := history.filterMap Event.request?

def answers (history : History α) : List Answer := history.filterMap Event.answer?

def items (history : History α) : List (Except Error α) := history.filterMap Event.given?

def batches (history : History α) : List Batch := history.filterMap Event.batch?

def failures (history : History α) : List Error := history.filterMap Event.failure?

def rows (history : History α) : List Json := history.batches.flatMap Batch.rows

def Over (history : History α) : Prop := history.failures ≠ [] ∨ .brought none ∈ history

def Exhausted (decode : Json → Except Error α) (history : History α) : Prop :=
  history.items = history.rows.map decode

theorem filterMap_concat {β : Type} (f : Event α → Option β) (history : History α)
    (event : Event α) :
    (history ++ [event]).filterMap f = history.filterMap f ++ (f event).toList := by
  cases h : f event <;> simp [h]

variable (history : History α) (event : Event α)

@[simp] theorem requests_concat :
    requests (history ++ [event]) = history.requests ++ event.request?.toList :=
  filterMap_concat ..

@[simp] theorem answers_concat :
    answers (history ++ [event]) = history.answers ++ event.answer?.toList :=
  filterMap_concat ..

@[simp] theorem items_concat :
    items (history ++ [event]) = history.items ++ event.given?.toList :=
  filterMap_concat ..

@[simp] theorem batches_concat :
    batches (history ++ [event]) = history.batches ++ event.batch?.toList :=
  filterMap_concat ..

@[simp] theorem failures_concat :
    failures (history ++ [event]) = history.failures ++ event.failure?.toList :=
  filterMap_concat ..

theorem over_concat :
    Over (history ++ [event]) ↔
      history.Over ∨ event.failure?.isSome ∨ event = .brought none := by
  cases h : event.failure? <;> simp [-Event.failure?, Over, h, or_assoc, @eq_comm _ event]

end History

/-- The events that a cursor is allowed after others: it is a cursor of some database with an
opening request, and it decodes the rows that it hands out. -/
inductive Allowed (database : String) (opening : Request) (decode : Json → Except Error α)
    (before : History α) : Event α → Prop where
  /-- The opening request comes before everything else. -/
  | opens (hbefore : before = []) : Allowed database opening decode before (.asked opening)
  /-- The next batch is asked of the cursor that the latest batch named, when there is more. -/
  | continues {last : Batch} {id : String} (hopen : ¬before.Over)
      (hanswered : before.requests.length = before.answers.length)
      (hempty : before.Exhausted decode) (hlast : before.batches.getLast? = some last)
      (hmore : last.hasMore = true) (hid : last.id = some id) :
      Allowed database opening decode before
        (.asked (.plain .put (Http.apiPath database ["cursor", id])))
  | answered (answer : Answer)
      (hasked : before.requests.length = before.answers.length + 1) :
      Allowed database opening decode before (.answered answer)
  /-- A poll brings the next row of those that came, or the reason why it cannot be decoded. -/
  | row {item : Except Error α} (hopen : ¬before.Over)
      (hnext : before.items ++ [item] <+: before.rows.map decode) :
      Allowed database opening decode before (.brought (some item))
  /-- A request that failed is reported right away. -/
  | failure {earlier : History α} {answer : Answer} {error : Error}
      (hbefore : before = earlier ++ [.answered answer]) (herror : batchOf answer = .error error)
      (hempty : earlier.Exhausted decode) :
      Allowed database opening decode before (.brought (some (.error error)))
  /-- There are no more items once it was said, or after the last batch. -/
  | finished (hover : before.Over ∨ before.Exhausted decode ∧ ∃ last,
        before.batches.getLast? = some last ∧ (last.hasMore = false ∨ last.id = none)) :
      Allowed database opening decode before (.brought none)

/-! ## Lawful histories -/

def Lawful (database : String) (opening : Request) (decode : Json → Except Error α)
    (history : History α) : Prop :=
  ∀ before event after, history = before ++ event :: after →
    Allowed database opening decode before event

variable {database : String} {opening : Request} {decode : Json → Except Error α}
  {history : History α} {event : Event α}

theorem Lawful.concat (h : Lawful database opening decode history)
    (hevent : Allowed database opening decode history event) :
    Lawful database opening decode (history ++ [event]) := by
  intro before next after hsplit
  rcases List.eq_nil_or_concat after with rfl | ⟨after, last, rfl⟩
  · obtain ⟨rfl, hnext⟩ := List.append_inj' hsplit rfl
    obtain rfl := List.singleton_inj.1 hnext
    exact hevent
  · rw [List.concat_eq_append, ← List.cons_append, ← List.append_assoc] at hsplit
    obtain ⟨hearlier, -⟩ := List.append_inj' hsplit rfl
    exact h before next after hearlier

/-- A lawful history begins with the opening request. -/
theorem Lawful.head? (h : Lawful database opening decode history)
    (hbegun : history ≠ []) : history.head? = some (.asked opening) := by
  obtain ⟨event, rest, rfl⟩ := List.exists_cons_of_ne_nil hbegun
  -- All but the opening request is allowed only after something else.
  cases h [] event rest rfl with
  | opens _ => rfl
  | continues _ _ _ hlast => cases hlast
  | answered _ hasked => cases hasked
  | row _ hnext => cases List.prefix_nil.1 hnext
  | failure hbefore => simp at hbefore
  | finished hover =>
      rcases hover with hfailed | ⟨-, last, hlast, -⟩
      · simp [History.Over, History.failures] at hfailed
      · cases hlast

end Cursor

end DocGraph
