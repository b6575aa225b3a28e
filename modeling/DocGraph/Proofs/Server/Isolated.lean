import DocGraph.Proofs.Server.Renumbered
import DocGraph.Proofs.Server.Sound
import DocGraph.Proofs.Table
import Mathlib.Logic.Function.Basic
/-!
# Databases are kept apart

A request reads and changes the database that it addresses and no other one.  The cursors are kept
for all databases together, under numbers that run through: a request that guesses the number of an
open cursor is served, whichever database the cursor was opened through.  This is the only way from
one database into another.
-/

namespace DocGraph

open Outcome

namespace Server

/-! ## One request on two servers -/

/-- Two outcomes that agree in the answer and in what becomes of one database; all else is left
alone on both servers. -/
structure Agree (name : String) (left right : Server) (first second : Outcome) : Prop where
  response : first.response = second.response
  confined : ∃ database? : Option StoredDatabase,
    first.server = { left with databases := left.databases.set name database? } ∧
      second.server = { right with databases := right.databases.set name database? }

section Agree

variable {left right : Server} {name : String}

theorem agree_unchanged (h : left.databases.get? name = right.databases.get? name)
    (response : Response) (usesRevision : Bool) :
    Agree name left right ⟨response, left, usesRevision⟩ ⟨response, right, usesRevision⟩ := by
  refine ⟨rfl, left.databases.get? name, ?_, ?_⟩
  · rw [Table.set_eq_self]
  · rw [h, Table.set_eq_self]

theorem agree_within (h : left.databases.get? name = right.databases.get? name)
    (ruling : Ruling (Granted StoredDatabase)) :
    Agree name left right (left.settle (left.within name ruling))
      (right.settle (right.within name ruling)) := by
  cases ruling with
  | error refusal => exact agree_unchanged h _ _
  | ok granted => exact ⟨rfl, some granted.state, rfl, rfl⟩

theorem agree_write (h : left.databases.get? name = right.databases.get? name)
    (ruling : Ruling (Granted StoredDatabase)) :
    Agree name left right (left.settleWrite name ruling) (right.settleWrite name ruling) := by
  have hwithin := agree_within h ruling
  exact ⟨hwithin.response, hwithin.confined⟩

theorem agree_parse (h : left.databases.get? name = right.databases.get? name)
    (body : Option Json) :
    Agree name left right (left.settle (parseQuery body left))
      (right.settle (parseQuery body right)) := by
  simp only [parseQuery]
  split
  · exact agree_unchanged h _ _
  · exact agree_unchanged h _ _

variable {request : Request}

theorem agree_route {database : StoredDatabase} {segments : List String} (fresh : String)
    (h : left.databases.get? name = right.databases.get? name)
    (hpath : Http.parsePath? request.path = some (name, segments))
    (hcursor : request.cursor? = none) (hopens : request.opensCursor = false) :
    Agree name left right (left.route fresh name database request segments)
      (right.route fresh name database request segments) := by
  unfold route
  dsimp only
  split
  -- A query and the three ways to name a cursor do not come up.
  case h_5 hmethod => simp [Request.opensCursor, hmethod, hpath] at hopens
  case h_6 hmethod => simp [Request.cursor?, hmethod, hpath] at hcursor
  case h_7 hmethod => simp [Request.cursor?, hmethod, hpath] at hcursor
  case h_8 hmethod => simp [Request.cursor?, hmethod, hpath] at hcursor
  case h_1 | h_3 => exact agree_write h _
  case h_16 => exact agree_parse h _
  case h_17 =>
    split
    · exact agree_within h _
    · exact agree_unchanged h _ _
  case h_18 => exact agree_unchanged h _ _
  all_goals exact agree_within h _

/-! ## Handling by what is addressed -/

theorem handle_of_missing {server : Server} (haddressed : request.database? = some name)
    (hdatabase : server.databases.get? name = none) (fresh : String) :
    server.handle fresh request = server.settle (.error .databaseNotFound) := by
  obtain ⟨⟨_, segments⟩, hparse, rfl⟩ := Option.map_eq_some_iff.1 haddressed
  simp only [handle, hparse, hdatabase]

theorem handle_of_cursor {server : Server} {database : StoredDatabase} {id : String}
    (haddressed : request.database? = some name)
    (hdatabase : server.databases.get? name = some database)
    (hcursor : request.cursor? = some id) (fresh : String) :
    server.handle fresh request = server.settle (server.serveCursor request.method id) := by
  obtain ⟨hmethod, _, hparse⟩ := Request.cursor?_eq_some_iff.1 hcursor
  simp only [Request.database?, hparse, Option.map_some, Option.some.injEq] at haddressed
  subst haddressed
  rcases hmethod with hmethod | hmethod | hmethod <;>
    simp [handle, hparse, hdatabase, route, serveCursor, hmethod]

theorem handle_of_opensCursor {server : Server} {database : StoredDatabase}
    (haddressed : request.database? = some name)
    (hdatabase : server.databases.get? name = some database)
    (hopens : request.opensCursor = true) (fresh : String) :
    server.handle fresh request = server.settle (server.openCursor database request.body) := by
  obtain ⟨hmethod, _, hparse⟩ := Request.opensCursor_iff.1 hopens
  simp only [Request.database?, hparse, Option.map_some, Option.some.injEq] at haddressed
  subst haddressed
  simp [handle, hparse, hdatabase, route, hmethod]

theorem agree_handle (h : left.databases.get? name = right.databases.get? name)
    (haddressed : request.database? = some name) (hcursor : request.cursor? = none)
    (hopens : request.opensCursor = false) (fresh : String) :
    Agree name left right (left.handle fresh request) (right.handle fresh request) := by
  cases hdatabase : left.databases.get? name with
  | none =>
      rw [handle_of_missing haddressed hdatabase, handle_of_missing haddressed (h ▸ hdatabase)]
      exact agree_unchanged h _ _
  | some database =>
      obtain ⟨⟨_, segments⟩, hparse, rfl⟩ := Option.map_eq_some_iff.1 haddressed
      simp only [handle, hparse, hdatabase, h ▸ hdatabase]
      exact agree_route fresh h hparse hcursor hopens

end Agree

/-! ## What a request leaves behind -/

section Isolation

variable {server after : Server} {name other id : String} {request : Request}

/-- What a request to a database leaves behind: the database is changed, or the open cursor that is
named moves on or is closed, or a query was answered. -/
inductive Leaves (server : Server) (name : String) (request : Request) : Server → Prop where
  | database (database? : Option StoredDatabase) :
      Leaves server name request
        { server with databases := server.databases.set name database? }
  | named {id : String} {cursor : StoredCursor}
      (hdatabase : (server.databases.get? name).isSome) (hcursor : request.cursor? = some id)
      (hopen : server.cursors.get? id = some cursor) (rows : List Json) :
      Leaves server name request (server.refile id rows cursor.batchSize)
  | query (size : Nat) : Leaves server name request (server.opened size)

theorem Leaves.unchanged (server : Server) (name : String) (request : Request) :
    Leaves server name request server := by
  have h : Leaves server name request { server with
      databases := server.databases.set name (server.databases.get? name) } := .database _
  rwa [Table.set_eq_self] at h

theorem handle_leaves (server : Server) (haddressed : request.database? = some name)
    (fresh : String) : Leaves server name request (server.handle fresh request).server := by
  cases hdatabase : server.databases.get? name with
  | none =>
      rw [handle_of_missing haddressed hdatabase]
      exact .unchanged server name request
  | some database =>
      cases hcursor : request.cursor? with
      | some id =>
          rw [handle_of_cursor haddressed hdatabase hcursor]
          cases hopen : server.cursors.get? id with
          | none =>
              rw [serveCursor_of_none hopen]
              exact .unchanged server name request
          | some cursor =>
              obtain ⟨_, hserved⟩ := serveCursor_of_some hopen request.method
              rw [hserved]
              exact .named (by simp [hdatabase]) hcursor hopen _
      | none =>
          cases hopens : request.opensCursor with
          | true =>
              rw [handle_of_opensCursor haddressed hdatabase hopens]
              cases hruling : server.openCursor database request.body with
              | error refusal => exact .unchanged server name request
              | ok granted =>
                  obtain ⟨_, _, _, _, hstate⟩ := openCursor_granted hruling
                  show Leaves server name request granted.state
                  rw [hstate]
                  exact .query _
          | false =>
              have hagree : Agree name server server _ _ :=
                agree_handle rfl haddressed hcursor hopens fresh
              obtain ⟨database?, hserver, _⟩ := hagree.confined
              exact hserver ▸ .database database?

theorem nextId_ne (hdrawn : ∃ n ≤ server.lastCursor, id = toString n) : server.nextId ≠ id := by
  obtain ⟨n, hn, rfl⟩ := hdrawn
  intro heq
  have hsame := toString_injective heq
  omega

namespace Leaves

theorem databases (h : server.Leaves name request after) (hne : name ≠ other) :
    after.databases.get? other = server.databases.get? other := by
  cases h with
  | database database? => exact (Table.get?_set ..).trans (if_neg hne)
  | named => rfl
  | query size => rw [opened_databases]

theorem cursors (h : server.Leaves name request after)
    (hdrawn : ∃ n ≤ server.lastCursor, id = toString n)
    (hcursor : (server.databases.get? name).isSome → request.cursor? = some id →
      server.cursors.get? id = none) :
    after.cursors.get? id = server.cursors.get? id := by
  cases h with
  | database => rfl
  | @named named cursor hdatabase hnamed hopen rows =>
      have hne : named ≠ id := by
        rintro rfl
        rw [hcursor hdatabase hnamed] at hopen
        cases hopen
      exact (get?_refile ..).trans (if_neg hne)
  | query size => rw [get?_opened, if_neg fun h => nextId_ne hdrawn h.2]

theorem lastCursor (h : server.Leaves name request after) :
    after.lastCursor = server.lastCursor ∨ after.lastCursor = server.lastCursor + 1 := by
  cases h with
  | database | named => exact .inl rfl
  | query size =>
      rw [opened_lastCursor]
      split
      · exact .inl rfl
      · exact .inr rfl

end Leaves

theorem handle_of_unaddressed (haddressed : request.database? = none) (fresh : String) :
    (server.handle fresh request).server = server := by
  have hparse := Option.map_eq_none_iff.1 haddressed
  simp only [handle, hparse]
  rfl

/-! ## Who opened which cursor -/

/-- A server, and for every number of a cursor the database through which it was drawn. -/
structure Tenancy where
  server : Server
  opener? : String → Option String

namespace Tenancy

def new (databases : List String) : Tenancy := ⟨Server.new databases, fun _ => none⟩

/-- A number that a request draws belongs to the database that the request addresses. -/
def play (tenancy : Tenancy) : Event → Tenancy
  | .script rows fullCount => { tenancy with server := tenancy.server.script rows fullCount }
  | .request fresh request =>
    let after := (tenancy.server.handle fresh request).server
    ⟨after,
      if after.lastCursor = tenancy.server.lastCursor then tenancy.opener?
      else Function.update tenancy.opener? tenancy.server.nextId request.database?⟩

def run (tenancy : Tenancy) (events : List Event) : Tenancy := events.foldl play tenancy

theorem server_run (tenancy : Tenancy) (events : List Event) :
    (tenancy.run events).server = tenancy.server.run events := by
  induction events generalizing tenancy with
  | nil => rfl
  | cons event events ih =>
      refine (ih (tenancy.play event)).trans (congrArg (Server.run · events) ?_)
      cases event <;> rfl

/-- What holds of a tenancy: the server is sound, openers are known of drawn numbers only, and they
are known of every cursor that is open. -/
structure Sound (tenancy : Tenancy) : Prop where
  server : tenancy.server.Sound
  drawn : ∀ id name, tenancy.opener? id = some name →
    ∃ n ≤ tenancy.server.lastCursor, id = toString n
  owned : ∀ id, (tenancy.server.cursors.get? id).isSome → (tenancy.opener? id).isSome

namespace Sound

theorem new (databases : List String) : (Tenancy.new databases).Sound := by
  refine ⟨.new databases, fun id name h => ?_, fun id h => ?_⟩
  · cases h
  · simp [Tenancy.new, Server.new] at h

variable {tenancy : Tenancy}

theorem play_request (h : tenancy.Sound) (fresh : String) (request : Request) :
    (tenancy.play (.request fresh request)).Sound := by
  have hsound : (tenancy.server.handle fresh request).server.Sound :=
    h.server.ends (tenancy.server.handle_ends fresh request)
  have hcontinues : tenancy.server.Continues (tenancy.server.handle fresh request).server :=
    .ends (tenancy.server.handle_ends fresh request)
  -- A cursor under a number that was drawn before was open before.
  have hearlier : ∀ n ≤ tenancy.server.lastCursor,
      ((tenancy.server.handle fresh request).server.cursors.get? (toString n)).isSome →
        (tenancy.opener? (toString n)).isSome := by
    intro n hn hopen
    obtain ⟨cursor, hcursor⟩ := Option.isSome_iff_exists.1 hopen
    obtain ⟨earlier, hbefore, _⟩ := hcontinues.same n hn cursor hcursor
    exact h.owned _ (Option.isSome_iff_exists.2 ⟨earlier, hbefore⟩)
  have hlast : (tenancy.server.handle fresh request).server.lastCursor =
        tenancy.server.lastCursor ∨
      (tenancy.server.handle fresh request).server.lastCursor = tenancy.server.lastCursor + 1 ∧
        request.database?.isSome := by
    cases haddressed : request.database? with
    | none => exact .inl (by rw [handle_of_unaddressed haddressed])
    | some name =>
        exact (handle_leaves tenancy.server haddressed fresh).lastCursor.imp_right (⟨·, rfl⟩)
  rcases hlast with hlast | ⟨hlast, haddressed⟩
  · refine ⟨hsound, ?_, ?_⟩ <;> simp only [play, hlast, if_true]
    · exact h.drawn
    · intro id hopen
      obtain ⟨n, hn, rfl⟩ := hsound.numbered id hopen
      exact hearlier n (hlast ▸ hn) hopen
  · have hchanged : tenancy.server.lastCursor + 1 ≠ tenancy.server.lastCursor := by omega
    refine ⟨hsound, ?_, ?_⟩ <;> simp only [play, hlast, if_neg hchanged]
    · intro id name hopener
      by_cases hid : id = tenancy.server.nextId
      · exact ⟨_, Nat.le_refl _, hid⟩
      · rw [Function.update_of_ne hid] at hopener
        obtain ⟨n, hn, hdrawn⟩ := h.drawn id name hopener
        exact ⟨n, Nat.le_succ_of_le hn, hdrawn⟩
    · intro id hopen
      by_cases hid : id = tenancy.server.nextId
      · rw [hid, Function.update_self]
        exact haddressed
      · rw [Function.update_of_ne hid]
        obtain ⟨n, hn, rfl⟩ := hsound.numbered id hopen
        have hne : n ≠ tenancy.server.lastCursor + 1 := fun heq => hid (congrArg toString heq)
        exact hearlier n (by omega) hopen

theorem play (h : tenancy.Sound) (event : Event) : (tenancy.play event).Sound := by
  cases event with
  | request fresh request => exact h.play_request fresh request
  | script rows fullCount =>
      exact ⟨⟨h.server.databases, h.server.pending, h.server.numbered.of_eq rfl rfl⟩,
        h.drawn, h.owned⟩

theorem run (h : tenancy.Sound) (events : List Event) : (tenancy.run events).Sound := by
  induction events generalizing tenancy with
  | nil => exact h
  | cons event events ih => exact ih (h.play event)

end Sound

def Holds (tenancy : Tenancy) (name id : String) : Prop :=
  tenancy.opener? id = some name ∧ (tenancy.server.cursors.get? id).isSome

def Reaches (tenancy : Tenancy) (request : Request) (name : String) : Prop :=
  (∃ addressed ∈ request.database?, (tenancy.server.databases.get? addressed).isSome) ∧
    ∃ id ∈ request.cursor?, tenancy.Holds name id

/-- Another tenancy that differs at most in what a database holds and in the cursors that were
opened through it, and in the numbers of the other cursors. -/
structure AlikeBut (name : String) (tenancy twin : Tenancy) (numbering : String → String) :
    Prop where
  databases : ∀ kept, kept ≠ name →
    twin.server.databases.get? kept = tenancy.server.databases.get? kept
  scripted : twin.server.scripted = tenancy.server.scripted
  cursors : ∀ id, ¬ tenancy.Holds name id → ¬ twin.Holds name (numbering id) →
    twin.server.cursors.get? (numbering id) = tenancy.server.cursors.get? id

variable {tenancy twin : Tenancy} {numbering : String → String}

/-- The cursors of a database change exactly when a request names one that is open. -/
theorem cursors_kept_iff (h : tenancy.Sound) (haddressed : request.database? = some name)
    (fresh : String) :
    (∀ id, tenancy.opener? id = some other →
      (tenancy.server.handle fresh request).server.cursors.get? id =
        tenancy.server.cursors.get? id) ↔ ¬ tenancy.Reaches request other := by
  constructor
  · rintro hkept ⟨⟨addressed, hname, hdatabase⟩, id, hcursor, hopener, hopen⟩
    obtain rfl : name = addressed := Option.some.inj (haddressed.symm.trans hname)
    obtain ⟨database, hdatabase⟩ := Option.isSome_iff_exists.1 hdatabase
    obtain ⟨cursor, hopen⟩ := Option.isSome_iff_exists.1 hopen
    obtain ⟨_, hserved⟩ := serveCursor_of_some hopen request.method
    have hsame := hkept id hopener
    rw [handle_of_cursor haddressed hdatabase hcursor, hserved, hopen] at hsame
    have hremaining := (get?_refile ..).symm.trans hsame
    rw [if_pos rfl] at hremaining
    obtain ⟨hrows, hcursor⟩ := eq_some_of_remaining hremaining
    -- What is filed anew has fewer rows than the cursor had.
    obtain ⟨hsome, hsize⟩ := h.server.pending id cursor hopen
    have hlength := congrArg (·.rows.length) hcursor
    have hpos := List.length_pos_iff.2 hsome
    split at hlength
    · simp only [List.length_nil] at hlength
      omega
    · simp only [List.length_drop] at hlength
      omega
  · intro hout id hopener
    refine (handle_leaves _ haddressed fresh).cursors (h.drawn id other hopener)
      fun hdatabase hcursor => ?_
    by_contra hopen
    exact hout ⟨⟨name, haddressed, hdatabase⟩, id, hcursor, hopener,
      Option.isSome_iff_ne_none.2 hopen⟩

/-- An answer tells nothing of a database that the request neither addresses nor reaches. -/
theorem answer_alike (h : tenancy.Sound) (halike : AlikeBut other tenancy twin numbering)
    (haddressed : request.database? = some name) (hne : name ≠ other)
    (hout : ¬ tenancy.Reaches request other)
    (hout' : ¬ twin.Reaches (request.renumber numbering) other) (fresh : String) :
    (twin.server.handle fresh (request.renumber numbering)).response =
      request.renumberAnswer
        (Function.update numbering tenancy.server.nextId twin.server.nextId)
        (tenancy.server.handle fresh request).response := by
  have hsame := halike.databases name hne
  have haddressed' := (Request.database?_renumber numbering request).trans haddressed
  cases hdatabase : tenancy.server.databases.get? name with
  | none =>
      rw [handle_of_missing haddressed hdatabase,
        handle_of_missing haddressed' (hsame.trans hdatabase)]
      unfold Request.renumberAnswer
      split
      · exact (Refusal.renumber_response _ .databaseNotFound).symm
      · rfl
  | some database =>
      have hdatabase' := hsame.trans hdatabase
      cases hcursor : request.cursor? with
      | some id =>
          have hcursor' := Request.cursor?_renumber numbering haddressed hcursor
          have hopen : twin.server.cursors.get? (numbering id) =
              tenancy.server.cursors.get? id := by
            refine halike.cursors id (fun hholds => hout ?_) (fun hholds => hout' ?_)
            · exact ⟨⟨name, haddressed, by simp [hdatabase]⟩, id, hcursor, hholds⟩
            · exact ⟨⟨name, haddressed', by simp [hdatabase']⟩, _, hcursor', hholds⟩
          rw [handle_of_cursor haddressed hdatabase hcursor,
            handle_of_cursor haddressed' hdatabase' hcursor', Request.renumberAnswer, hcursor,
            Request.renumber_of_some numbering haddressed hcursor]
          refine response_settle_renumber (serveCursor_renumber hopen (fun hsome => ?_) _)
          -- An open cursor is not filed under the number that is drawn next.
          exact Function.update_of_ne (nextId_ne (h.server.numbered id hsome)).symm ..
      | none =>
          rw [Request.renumber_of_none numbering hcursor, Request.renumberAnswer, hcursor]
          cases hopens : request.opensCursor with
          | true =>
              rw [handle_of_opensCursor haddressed hdatabase hopens,
                handle_of_opensCursor haddressed hdatabase' hopens]
              exact response_settle_renumber
                (openCursor_renumber halike.scripted (Function.update_self ..) _ _)
          | false => exact (agree_handle hsame haddressed hcursor hopens fresh).response

/-- Whatever a server has been asked, its databases are kept apart.  Every open cursor was opened
through one database.  A request leaves all other databases alone; it leaves the cursors that were
opened through another one alone exactly when it names none of them that is open; and then its
answer does not depend on what the other one holds, on the cursors that were opened through it or
on how many numbers were drawn. -/
theorem isolated_run (databases : List String) (events : List Event) (hne : name ≠ other)
    (haddressed : request.database? = some name) (fresh : String) :
    let tenancy := (Tenancy.new databases).run events
    let outcome := tenancy.server.handle fresh request
    tenancy.server = (Server.new databases).run events ∧
    (∀ id, (tenancy.server.cursors.get? id).isSome → (tenancy.opener? id).isSome) ∧
    outcome.server.databases.get? other = tenancy.server.databases.get? other ∧
    ((∀ id, tenancy.opener? id = some other →
      outcome.server.cursors.get? id = tenancy.server.cursors.get? id) ↔
        ¬ tenancy.Reaches request other) ∧
    ∀ twin numbering, AlikeBut other tenancy twin numbering → ¬ tenancy.Reaches request other →
      ¬ twin.Reaches (request.renumber numbering) other →
      (twin.server.handle fresh (request.renumber numbering)).response =
        request.renumberAnswer
          (Function.update numbering tenancy.server.nextId twin.server.nextId)
          outcome.response := by
  intro tenancy outcome
  have hsound : tenancy.Sound := (Sound.new databases).run events
  exact ⟨server_run _ events, hsound.owned, (handle_leaves _ haddressed fresh).databases hne,
    cursors_kept_iff hsound haddressed fresh,
    fun _ _ halike hout hout' => answer_alike hsound halike haddressed hne hout hout' fresh⟩

end Tenancy

end Isolation

namespace Tenancy

def rowwise (database : String) : Request :=
  ⟨.post, Http.apiPath database ["cursor"], [],
    some (.ofMembers [("query", .string "RETURN 1"), ("batchSize", .ofNat 1)])⟩

/-- Two databases, a cursor with a row left that was opened through the second one, and rows for
the next query. -/
def shared : Tenancy :=
  (new ["a", "b"]).run [.script [.ofNat 1, .ofNat 2] none, .request "" (rowwise "b"),
    .script [.ofNat 3, .ofNat 4] none]

def alone : Tenancy := (new ["a", "b"]).run [.script [.ofNat 3, .ofNat 4] none]

theorem alikeBut_alone : AlikeBut "b" shared alone fun number => number := by
  refine ⟨fun kept hne => ?_, rfl, fun number hout _ => ?_⟩
  · have haddressed : (rowwise "b").database? = some "b" := by decide +kernel
    exact ((handle_leaves _ haddressed "").databases hne.symm).symm
  · have hsound : shared.Sound := (Sound.new ["a", "b"]).run _
    -- The only number that was drawn is that of the cursor of the second database.
    have hdrawn : shared.server.lastCursor = 1 := by decide +kernel
    have hopener : shared.opener? "1" = some "b" := by decide +kernel
    have hzero : (shared.server.cursors.get? "0").isNone = true := by decide +kernel
    show none = shared.server.cursors.get? number
    by_contra hopen
    have hsome : (shared.server.cursors.get? number).isSome :=
      Option.isSome_iff_ne_none.2 (Ne.symm hopen)
    obtain ⟨n, hn, rfl⟩ := hsound.server.numbered number hsome
    rw [hdrawn] at hn
    interval_cases n
    · exact absurd (Option.isNone_iff_eq_none.1 hzero).symm hopen
    · exact hout ⟨hopener, hsome⟩

theorem isolated_run_rowwise :
    let outcome := shared.server.handle "" (rowwise "a")
    "a" ≠ "b" ∧ (rowwise "a").database? = some "a" ∧
    outcome.response.body.member? "id" = some (.string "2") ∧
    outcome.server.databases.get? "b" = shared.server.databases.get? "b" ∧
    (∀ id, shared.opener? id = some "b" →
      outcome.server.cursors.get? id = shared.server.cursors.get? id) ∧
    (alone.server.handle "" (rowwise "a")).response =
      (rowwise "a").renumberAnswer (Function.update (fun number => number) "2" "1")
        outcome.response := by
  have hne : "a" ≠ "b" := by decide
  have haddressed : (rowwise "a").database? = some "a" := by decide +kernel
  have hcursor : (rowwise "a").cursor? = none := by decide +kernel
  have hout (tenancy : Tenancy) : ¬ tenancy.Reaches (rowwise "a") "b" := by
    rintro ⟨_, number, hnumber, _⟩
    rw [hcursor] at hnumber
    cases hnumber
  obtain ⟨_, _, hdatabase, hkept, hanswer⟩ := isolated_run ["a", "b"]
    [.script [.ofNat 1, .ofNat 2] none, .request "" (rowwise "b"),
      .script [.ofNat 3, .ofNat 4] none] hne haddressed ""
  refine ⟨hne, haddressed, by decide +kernel, hdatabase, hkept.2 (hout _), ?_⟩
  exact hanswer alone _ alikeBut_alone (hout _) (hout _)

/-- Through the first database the row is fetched that is kept for the second one, and the cursor
is gone. -/
theorem not_isolated_guessed :
    let request := Request.plain .put (Http.apiPath "a" ["cursor", "1"])
    let outcome := shared.server.handle "" request
    request.database? = some "a" ∧ shared.opener? "1" = some "b" ∧
    (shared.server.cursors.get? "1").isSome = true ∧
    outcome.response = ⟨200, .ofMembers [("result", .array [.ofNat 2]), ("hasMore", .bool false),
      ("id", .string "1")]⟩ ∧
    (outcome.server.cursors.get? "1").isNone = true := by
  decide +kernel

end Tenancy

end Server

end DocGraph
