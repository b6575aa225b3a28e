import DocGraph.Proofs.Streams.Basic
/-!
# Every row is delivered once

What a cursor has handed out, what it has buffered and what the server keeps for it make up the
result that was scripted for its turn.  Polls move rows along and lose none; what is done to one
cursor leaves all others alone, as each is kept under a number of its own.
-/

namespace DocGraph

open Outcome

variable {draw : Nat → String}

/-! ## Hosts -/

theorem Server.numbered_script {server : Server} (h : server.Numbered) (rows : List Json)
    (fullCount : Option UInt64) : (server.script rows fullCount).Numbered :=
  h.of_eq rfl rfl

theorem Host.Reached.numbered {host : Host} (h : host.Reached draw) : host.server.Numbered := by
  induction h with
  | start databases =>
      intro id hid
      simp [Server.new] at hid
  | answer _ request ih =>
      unfold Host.answerFrom
      split
      · exact ih
      · exact ih.handle _ request
  | script _ rows fullCount ih => exact Server.numbered_script ih rows fullCount
  | fail _ failure ih => exact ih

/-! ## Sources -/

section

variable [CustomCodecs]

theorem CursorSource.cursor_eq_ok {source : CursorSource} {cursor : Cursor (Drawn Entity ⊕ Json)}
    (h : source.cursor = .ok cursor) :
    ∃ compiled, source.query.compile = .ok compiled ∧
      cursor = Cursor.new source.config.database (openRequest source.config compiled false)
        source.decode := by
  cases source with
  | ofCollection collection query =>
      obtain ⟨cursor, hcursor, h⟩ := bind_eq_ok_iff.1 h
      obtain ⟨_, _, hcursor⟩ := bind_eq_ok_iff.1 hcursor
      obtain ⟨compiled, hcompiled, hcursor⟩ := bind_eq_ok_iff.1 hcursor
      obtain rfl := Except.ok.inj hcursor
      obtain rfl := Except.ok.inj h
      exact ⟨compiled, hcompiled, rfl⟩
  | ofAll collection =>
      obtain ⟨cursor, hcursor, h⟩ := bind_eq_ok_iff.1 h
      obtain ⟨_, _, hcursor⟩ := bind_eq_ok_iff.1 hcursor
      obtain ⟨compiled, hcompiled, hcursor⟩ := bind_eq_ok_iff.1 hcursor
      obtain rfl := Except.ok.inj hcursor
      obtain rfl := Except.ok.inj h
      exact ⟨compiled, hcompiled, rfl⟩
  | ofDatabase database query =>
      obtain ⟨cursor, hcursor, h⟩ := bind_eq_ok_iff.1 h
      obtain ⟨compiled, hcompiled, hcursor⟩ := bind_eq_ok_iff.1 hcursor
      obtain rfl := Except.ok.inj hcursor
      obtain rfl := Except.ok.inj h
      exact ⟨compiled, hcompiled, rfl⟩
  | ofJson database query =>
      obtain ⟨cursor, hcursor, h⟩ := bind_eq_ok_iff.1 h
      obtain ⟨compiled, hcompiled, hcursor⟩ := bind_eq_ok_iff.1 hcursor
      obtain rfl := Except.ok.inj hcursor
      obtain rfl := Except.ok.inj h
      exact ⟨compiled, hcompiled, rfl⟩

/-! ## The invariant of one cursor -/

namespace HeldCursor

/-- A cursor in the middle of its result: some rows were handed out, some are buffered, and the
rest is on the server. -/
structure Delivering (rows : List Json) (server : Server) (held : HeldCursor)
    (rest : List Json) (size : Nat) : Prop where
  positive : 0 < size
  stands : held.cursor.Stands rest held.filed?
  left : held.cursor.rows ++ rest = rows.drop held.polls.length
  brought : ∀ (n : Nat) (poll : Cursor.Poll (Drawn Entity ⊕ Json)), held.polls[n]? = some poll →
    poll = Cursor.expected held.source.decode rows[n]?
  counted : held.handed + rest.length = rows.length
  kept : ∀ id ∈ held.filed?, server.cursors.get? id =
    if held.isClosed then none else Server.remaining rest size

structure Sound (start : Host) (server : Server) (held : HeldCursor) : Prop where
  decode : held.cursor.decode = held.source.decode
  database : held.cursor.database = held.source.config.database
  binds : held.source.BindsExisting start.server
  unopened : held.turn? = none → held.polls = [] ∧ held.filed? = none ∧
    ∃ compiled, held.source.query.compile = .ok compiled ∧
      held.cursor = Cursor.new held.source.config.database
        (openRequest held.source.config compiled false) held.source.decode
  opened : ∀ turn, held.turn? = some turn →
    ∃ rest size, held.Delivering (start.server.scriptedRows turn) server rest size

variable {start : Host} {server after : Server} {held : HeldCursor}

theorem Delivering.kept_open {rows rest : List Json} {size : Nat}
    (h : Delivering rows server held rest size) (hopen : held.isClosed = false) :
    ∀ id ∈ held.filed?, server.cursors.get? id = Server.remaining rest size := by
  intro id hid
  rw [h.kept id hid, hopen]
  rfl

theorem Sound.of_get? (h : held.Sound start server)
    (hsame : ∀ id ∈ held.filed?, after.cursors.get? id = server.cursors.get? id) :
    held.Sound start after := by
  refine ⟨h.decode, h.database, h.binds, h.unopened, fun turn hturn => ?_⟩
  obtain ⟨rest, size, hdelivering⟩ := h.opened turn hturn
  refine ⟨rest, size, hdelivering.positive, hdelivering.stands, hdelivering.left,
    hdelivering.brought, hdelivering.counted, fun id hid => ?_⟩
  rw [hsame id hid, hdelivering.kept id hid]

theorem Sound.deliversOnce (h : held.Sound start server) : held.DeliversOnce start := by
  unfold DeliversOnce
  cases hturn : held.turn? with
  | none => exact (h.unopened hturn).1
  | some turn =>
      obtain ⟨rest, size, hdelivering⟩ := h.opened turn hturn
      exact hdelivering.brought

theorem Sound.keptWhileNeeded (h : held.Sound start server) :
    held.KeptWhileNeeded start server := by
  unfold KeptWhileNeeded
  cases hturn : held.turn? with
  | none => simp [(h.unopened hturn).2.1]
  | some turn =>
      obtain ⟨rest, size, hdelivering⟩ := h.opened turn hturn
      have hcounted := hdelivering.counted
      constructor
      · rintro ⟨id, hid, hstored⟩
        rw [hdelivering.kept id hid] at hstored
        cases hclosed : held.isClosed with
        | true => simp [hclosed] at hstored
        | false =>
            refine ⟨turn, rfl, rfl, ?_⟩
            cases rest with
            | nil => simp [hclosed, Server.remaining] at hstored
            | cons row rest => simp only [List.length_cons] at hcounted; omega
      · rintro ⟨_, hsame, hclosed, hmore⟩
        obtain rfl := Option.some.inj hsame
        have hrest : rest ≠ [] := by
          rintro rfl
          simp only [List.length_nil] at hcounted
          omega
        obtain ⟨id, hid⟩ := Option.isSome_iff_exists.1 (hdelivering.stands.filed hrest)
        refine ⟨id, hid, ?_⟩
        rw [hdelivering.kept id hid, hclosed, Server.remaining,
          List.isEmpty_eq_false_iff.2 hrest]
        rfl

theorem delivering_of_poll {rows rest : List Json} {size : Nat}
    {cursor : Cursor (Drawn Entity ⊕ Json)} {poll : Cursor.Poll (Drawn Entity ⊕ Json)}
    {turn? : Option Nat} {filed? : Option String}
    (hbrought : ∀ (n : Nat) (poll : Cursor.Poll (Drawn Entity ⊕ Json)), held.polls[n]? = some poll →
      poll = Cursor.expected held.source.decode rows[n]?)
    (hcounted : held.polls.countP Cursor.Poll.isItem + (rows.drop held.polls.length).length =
      rows.length)
    (hsize : 0 < size) (hstands : cursor.Stands rest filed?)
    (hpoll : poll = Cursor.expected held.source.decode (rows.drop held.polls.length).head?)
    (hleft : cursor.rows ++ rest = (rows.drop held.polls.length).tail)
    (hkept : ∀ id ∈ filed?, after.cursors.get? id =
      if held.isClosed then none else Server.remaining rest size) :
    Delivering rows after
      { held with cursor, polls := held.polls ++ [poll], turn?, filed? } rest size := by
  refine ⟨hsize, hstands, ?_, ?_, ?_, hkept⟩
  · rw [hleft, List.tail_drop, List.length_append, List.length_singleton]
  · intro n other hother
    rcases Nat.lt_trichotomy n held.polls.length with hlt | rfl | hgt
    · rw [List.getElem?_append_left hlt] at hother
      exact hbrought n other hother
    · rw [List.getElem?_append_right (Nat.le_refl _)] at hother
      obtain rfl : poll = other := by simpa using hother
      rw [hpoll, List.head?_drop]
    · simp [List.getElem?_append_right (Nat.le_of_lt hgt), Nat.sub_ne_zero_of_lt hgt] at hother
  · have hlengths := congrArg List.length hleft
    rw [List.length_append, List.length_tail] at hlengths
    simp only [handed, List.countP_append]
    cases hnext : rows.drop held.polls.length with
    | nil =>
        rw [hnext] at hpoll hlengths hcounted
        simp only [List.head?_nil, Cursor.expected] at hpoll
        simp only [hpoll, Cursor.Poll.isItem, List.countP_singleton, List.length_nil] at *
        simp only [Bool.false_eq_true, if_false]
        omega
    | cons row left =>
        rw [hnext] at hpoll hlengths hcounted
        simp only [List.head?_cons, Cursor.expected] at hpoll
        simp only [hpoll, Cursor.Poll.isItem, List.countP_singleton, List.length_cons] at *
        simp only [if_true]
        omega

end HeldCursor

/-! ## The invariant of all cursors -/

def HeldCursor.Distinct {β : Type} (label : HeldCursor → Option β) (cursors : List HeldCursor) :
    Prop :=
  ∀ (i k : Nat) (held other : HeldCursor) (b : β), cursors[i]? = some held →
    cursors[k]? = some other → label held = some b → label other = some b → i = k

/-- Every cursor is in the middle of its result, under a number that was drawn for it. -/
structure Streams.Sound (start : Host) (streams : Streams) : Prop where
  failures : streams.host.failures = []
  databases : streams.host.server.databases = start.server.databases
  scripted : streams.host.server.scripted = start.server.scripted.drop streams.opened
  last : start.server.lastCursor ≤ streams.host.server.lastCursor
  held : ∀ held ∈ streams.cursors, held.Sound start streams.host.server
  past : ∀ held ∈ streams.cursors, ∀ turn ∈ held.turn?, turn < streams.opened
  turns : HeldCursor.Distinct HeldCursor.turn? streams.cursors
  numbered : ∀ held ∈ streams.cursors, ∀ id ∈ held.filed?, ∃ n,
    start.server.lastCursor < n ∧ n ≤ streams.host.server.lastCursor ∧ id = toString n
  apart : HeldCursor.Distinct HeldCursor.filed? streams.cursors
  others : ∀ id, (∀ held ∈ streams.cursors, held.filed? ≠ some id) →
    streams.host.server.cursors.get? id = start.server.cursors.get? id

namespace HeldCursor

omit [CustomCodecs] in
theorem getElem?_set_cases {cursors : List HeldCursor} {index k : Nat} {held other : HeldCursor}
    (h : (cursors.set index held)[k]? = some other) :
    (k = index ∧ other = held) ∨ (k ≠ index ∧ cursors[k]? = some other) := by
  rw [List.getElem?_set] at h
  split at h
  · rename_i heq
    split at h
    · exact Or.inl ⟨heq.symm, (Option.some.inj h).symm⟩
    · simp at h
  · rename_i hne
    exact Or.inr ⟨Ne.symm hne, h⟩

omit [CustomCodecs] in
theorem forall_mem_set {cursors : List HeldCursor} {index : Nat} {held : HeldCursor}
    {p : HeldCursor → Prop} (hnew : p held)
    (hothers : ∀ (k : Nat) (other : HeldCursor), k ≠ index → cursors[k]? = some other → p other) :
    ∀ other ∈ cursors.set index held, p other := by
  intro other hother
  obtain ⟨k, hk⟩ := List.mem_iff_getElem?.1 hother
  rcases getElem?_set_cases hk with ⟨_, rfl⟩ | ⟨hne, hold⟩
  · exact hnew
  · exact hothers k other hne hold

variable {β : Type} {label : HeldCursor → Option β} {cursors : List HeldCursor}

omit [CustomCodecs] in
theorem Distinct.set (h : Distinct label cursors) {index : Nat} {held : HeldCursor}
    (hfresh : ∀ (k : Nat) (other : HeldCursor), k ≠ index → cursors[k]? = some other →
      ∀ b ∈ label other, b ∉ label held) : Distinct label (cursors.set index held) := by
  intro i k first second b hfirst hsecond hmine htheirs
  rcases getElem?_set_cases hfirst with ⟨rfl, rfl⟩ | ⟨hi, hfirstOld⟩
  · rcases getElem?_set_cases hsecond with ⟨rfl, _⟩ | ⟨hk, hsecondOld⟩
    · rfl
    · exact absurd hmine (hfresh k second hk hsecondOld b htheirs)
  · rcases getElem?_set_cases hsecond with ⟨rfl, rfl⟩ | ⟨_, hsecondOld⟩
    · exact absurd htheirs (hfresh i first hi hfirstOld b hmine)
    · exact h i k first second b hfirstOld hsecondOld hmine htheirs

omit [CustomCodecs] in
theorem Distinct.append (h : Distinct label cursors) {held : HeldCursor}
    (hnone : label held = none) : Distinct label (cursors ++ [held]) := by
  have hcases : ∀ (k : Nat) (other : HeldCursor) (b : β),
      (cursors ++ [held])[k]? = some other → label other = some b → cursors[k]? = some other := by
    intro k other b hother hlabel
    rw [List.getElem?_append] at hother
    split at hother
    · exact hother
    · obtain rfl := List.mem_singleton.1 (List.mem_of_getElem? hother)
      simp [hnone] at hlabel
  intro i k first second b hfirst hsecond hmine htheirs
  exact h i k first second b (hcases i first b hfirst hmine) (hcases k second b hsecond htheirs)
    hmine htheirs

end HeldCursor

namespace Streams

variable {start : Host} {streams : Streams}

theorem sound_start {host : Host} (hfailures : host.failures = []) :
    (Streams.start host).Sound host where
  failures := hfailures
  databases := rfl
  scripted := rfl
  last := Nat.le_refl _
  held := fun held hmem => by simp [Streams.start] at hmem
  past := fun held hmem => by simp [Streams.start] at hmem
  turns := fun i k held other turn hheld => by simp [Streams.start] at hheld
  numbered := fun held hmem => by simp [Streams.start] at hmem
  apart := fun i k held other id hheld => by simp [Streams.start] at hheld
  others := fun id _ => rfl

/-- Something happens to one cursor: the rows that are kept for it change, and it may be given a
turn and a number that no cursor had before. -/
theorem Sound.replace (h : streams.Sound start) {index : Nat} {held held' : HeldCursor}
    (hheld : streams.cursors[index]? = some held) {host : Host} {opened : Nat}
    (hfailures : host.failures = [])
    (hdatabases : host.server.databases = streams.host.server.databases)
    (hscripted : host.server.scripted = start.server.scripted.drop opened)
    (hlast : streams.host.server.lastCursor ≤ host.server.lastCursor)
    (hsound : held'.Sound start host.server) (hopened : streams.opened ≤ opened)
    (hturn : ∀ turn ∈ held'.turn?, turn ∈ held.turn? ∨ streams.opened ≤ turn ∧ turn < opened)
    (hfiled : ∀ id ∈ held'.filed?, id ∈ held.filed? ∨ ∃ n,
      streams.host.server.lastCursor < n ∧ n ≤ host.server.lastCursor ∧ id = toString n)
    (hkept : ∀ id ∈ held.filed?, id ∈ held'.filed?)
    (hothers : ∀ id ∉ held'.filed?,
      host.server.cursors.get? id = streams.host.server.cursors.get? id) :
    Sound start ⟨host, opened, streams.cursors.set index held'⟩ := by
  have hmem : held ∈ streams.cursors := List.mem_of_getElem? hheld
  have hindex : index < streams.cursors.length := (List.getElem?_eq_some_iff.1 hheld).1
  -- No other cursor has the identifier that this one has now.
  have hforeign : ∀ (k : Nat) (other : HeldCursor), k ≠ index →
      streams.cursors[k]? = some other → ∀ id ∈ other.filed?, id ∉ held'.filed? := by
    intro k other hk hother id hid hid'
    rcases hfiled id hid' with hold | ⟨n, hfresh, _, rfl⟩
    · exact hk (h.apart k index other held id hother hheld hid hold)
    · obtain ⟨m, _, hm, heq⟩ := h.numbered other (List.mem_of_getElem? hother) _ hid
      have hsame := Server.toString_injective heq
      omega
  have hturns : ∀ (k : Nat) (other : HeldCursor), k ≠ index →
      streams.cursors[k]? = some other → ∀ turn ∈ other.turn?, turn ∉ held'.turn? := by
    intro k other hk hother turn hmine htheirs
    rcases hturn turn htheirs with hold | ⟨hfresh, _⟩
    · exact hk (h.turns k index other held turn hother hheld hmine hold)
    · have hpast := h.past other (List.mem_of_getElem? hother) turn hmine
      omega
  constructor
  · exact hfailures
  · exact hdatabases.trans h.databases
  · exact hscripted
  · exact Nat.le_trans h.last hlast
  · exact HeldCursor.forall_mem_set hsound fun k other hne hold =>
      (h.held other (List.mem_of_getElem? hold)).of_get? fun id hid =>
        hothers id (hforeign k other hne hold id hid)
  · refine HeldCursor.forall_mem_set (fun turn hmine => ?_) fun k other _ hold turn hmine =>
      Nat.lt_of_lt_of_le (h.past other (List.mem_of_getElem? hold) turn hmine) hopened
    rcases hturn turn hmine with hold | ⟨_, hlt⟩
    · exact Nat.lt_of_lt_of_le (h.past held hmem turn hold) hopened
    · exact hlt
  · exact h.turns.set hturns
  · have hold : ∀ other ∈ streams.cursors, ∀ id ∈ other.filed?, ∃ n,
        start.server.lastCursor < n ∧ n ≤ host.server.lastCursor ∧ id = toString n := by
      intro other hother id hid
      obtain ⟨n, hstart, hn, rfl⟩ := h.numbered other hother id hid
      exact ⟨n, hstart, Nat.le_trans hn hlast, rfl⟩
    refine HeldCursor.forall_mem_set (fun id hid => ?_) fun k other _ hother =>
      hold other (List.mem_of_getElem? hother)
    rcases hfiled id hid with hmine | ⟨n, hfresh, hn, rfl⟩
    · exact hold held hmem id hmine
    · exact ⟨n, Nat.lt_of_le_of_lt h.last hfresh, hn, rfl⟩
  · exact h.apart.set hforeign
  · intro id hnone
    have hnew : id ∉ held'.filed? := hnone held' (List.mem_set hindex held')
    refine (hothers id hnew).trans (h.others id fun other hother hid => ?_)
    obtain ⟨k, hk⟩ := List.mem_iff_getElem?.1 hother
    by_cases heq : k = index
    · rw [heq, hheld] at hk
      obtain rfl := Option.some.inj hk
      exact hnew (hkept id hid)
    · have hstays : (streams.cursors.set index held')[k]? = some other := by
        rw [List.getElem?_set_ne (Ne.symm heq), hk]
      exact hnone other (List.mem_of_getElem? hstays) hid

/-! ## Moves keep the invariant -/

theorem Sound.make (h : streams.Sound start) {source : CursorSource}
    (hbinds : source.BindsExisting start.server) : (streams.make source).Sound start := by
  unfold Streams.make
  cases hcursor : source.cursor with
  | error error => exact h
  | ok cursor =>
      obtain ⟨compiled, hcompiled, rfl⟩ := CursorSource.cursor_eq_ok hcursor
      constructor
      · exact h.failures
      · exact h.databases
      · exact h.scripted
      · exact h.last
      · intro held hmem
        rcases List.mem_append.1 hmem with hmem | hmem
        · exact h.held held hmem
        · obtain rfl := List.mem_singleton.1 hmem
          exact ⟨rfl, rfl, hbinds, fun _ => ⟨rfl, rfl, compiled, hcompiled, rfl⟩,
            fun turn hturn => by simp at hturn⟩
      · intro held hmem turn hturn
        rcases List.mem_append.1 hmem with hmem | hmem
        · exact h.past held hmem turn hturn
        · obtain rfl := List.mem_singleton.1 hmem
          simp at hturn
      · exact h.turns.append rfl
      · intro held hmem id hid
        rcases List.mem_append.1 hmem with hmem | hmem
        · exact h.numbered held hmem id hid
        · obtain rfl := List.mem_singleton.1 hmem
          simp at hid
      · exact h.apart.append rfl
      · intro id hnone
        exact h.others id fun held hmem => hnone held (List.mem_append_left _ hmem)

omit [CustomCodecs] in
theorem scriptedRows_of_drop {server : Server} {scripted : List ScriptedResult} {opened : Nat}
    (h : server.scripted = scripted.drop opened) :
    server.scriptedRows 0 = (scripted[opened]?.map (·.rows)).getD [] := by
  unfold Server.scriptedRows
  rw [h, List.getElem?_drop, Nat.add_zero]

theorem Sound.poll_unopened (h : streams.Sound start) {index : Nat} {held : HeldCursor}
    (hheld : streams.cursors[index]? = some held) (hopen : held.isClosed = false)
    (hturn : held.turn? = none) (spare : Nat) :
    (streams.poll draw index spare held).Sound start := by
  have hsound := h.held held (List.mem_of_getElem? hheld)
  obtain ⟨hpolls, hfiled, compiled, hcompiled, hcursor⟩ := hsound.unopened hturn
  obtain ⟨database, hdatabase, hbinds⟩ := hsound.binds
  rw [← h.databases] at hdatabase
  obtain ⟨poll, after, size, hsize, hrun, filed?, hstands, hid, hdecode, hname, hpoll, hleft⟩ :=
    Host.poll_of_new draw h.failures hdatabase hcompiled (hbinds compiled hcompiled)
      held.source.decode spare
  rw [← hcursor] at hrun
  have hrows : streams.host.server.scriptedRows 0 = start.server.scriptedRows streams.opened :=
    scriptedRows_of_drop h.scripted
  have hopens : (held.cursor.initial.isSome && after.initial.isNone) = true := by
    rw [hcursor, hstands.sent]
    rfl
  have hafter : held.filed?.or after.id = filed? := by
    rw [hfiled, Option.none_or, hstands.id, hid]
    split <;> rfl
  unfold Streams.poll
  simp only [hrun, hopens, if_true, hafter]
  refine h.replace hheld h.failures (Server.opened_databases _ _) ?_ ?_ ?_ (Nat.le_succ _)
    ?_ ?_ ?_ ?_
  · rw [Server.opened_scripted, h.scripted, List.tail_drop]
  · rw [Server.opened_lastCursor]
    split <;> omega
  · refine ⟨hdecode, hname, hsound.binds, fun hnone => by simp at hnone, fun turn hturn => ?_⟩
    obtain rfl := Option.some.inj hturn
    rw [hrows] at hstands hpoll hleft hid
    refine ⟨_, size, HeldCursor.delivering_of_poll ?_ ?_ hsize hstands ?_ ?_ fun id hfresh => ?_⟩
    · simp [hpolls]
    · simp [hpolls]
    · simpa [hpolls] using hpoll
    · simpa [hpolls] using hleft
    · rw [hid] at hfresh
      rw [Server.get?_opened, hrows, hopen]
      split at hfresh
      · simp at hfresh
      · rename_i hmore
        rw [if_pos ⟨by simpa using hmore, Option.some.inj hfresh⟩]
        rfl
  · intro turn hmine
    obtain rfl := Option.some.inj hmine
    exact Or.inr ⟨Nat.le_refl _, Nat.lt_succ_self _⟩
  · intro id hfresh
    rw [hid] at hfresh
    split at hfresh
    · simp at hfresh
    · rename_i hmore
      refine Or.inr ⟨_, Nat.lt_succ_self _, ?_, (Option.some.inj hfresh).symm⟩
      rw [Server.opened_lastCursor, if_neg hmore]
  · intro id hold
    simp [hfiled] at hold
  · intro id hother
    rw [Server.get?_opened, if_neg]
    rintro ⟨hmore, rfl⟩
    refine hother ?_
    rw [hid, if_neg (by simpa using hmore)]
    rfl

theorem Sound.poll_opened (h : streams.Sound start) {index : Nat} {held : HeldCursor}
    (hheld : streams.cursors[index]? = some held) (hopen : held.isClosed = false) {turn : Nat}
    (hturn : held.turn? = some turn) (spare : Nat) :
    (streams.poll draw index spare held).Sound start := by
  have hsound := h.held held (List.mem_of_getElem? hheld)
  obtain ⟨rest, size, hdelivering⟩ := hsound.opened turn hturn
  obtain ⟨database, hdatabase, _⟩ := hsound.binds
  rw [← h.databases, ← hsound.database] at hdatabase
  obtain ⟨poll, after, rest', hrun, hpolled⟩ :=
    Host.poll_of_stands draw h.failures hdatabase hdelivering.positive
      hdelivering.stands (hdelivering.kept_open hopen) spare
  have hopens : (held.cursor.initial.isSome && after.initial.isNone) = false := by
    rw [hdelivering.stands.sent]
    rfl
  have hafter : held.filed?.or after.id = held.filed? := by
    rw [hpolled.stands.id]
    split
    · exact Option.or_none
    · exact Option.or_self
  unfold Streams.poll
  simp only [hrun, hopens, Bool.false_eq_true, if_false, hafter]
  refine h.replace hheld h.failures (by simp) (by simp [h.scripted]) (by simp) ?_ (Nat.le_refl _)
    (fun turn hmine => Or.inl hmine) (fun id hid => Or.inl hid) (fun id hid => hid)
    fun id hother => Server.get?_keep_of_not_mem _ _ _ _ hother
  · refine ⟨hpolled.decode.trans hsound.decode, hpolled.database.trans hsound.database,
      hsound.binds, fun hnone => by simp [hturn] at hnone, fun other hother => ?_⟩
    obtain rfl : turn = other := Option.some.inj (hturn.symm.trans hother)
    have hcounted := hdelivering.counted
    refine ⟨rest', size, HeldCursor.delivering_of_poll hdelivering.brought ?_
      hdelivering.positive hpolled.stands ?_ ?_ fun id hid => ?_⟩
    · rw [← hdelivering.left, List.length_append]
      unfold HeldCursor.handed at hcounted
      omega
    · rw [← hdelivering.left, hpolled.brings, hsound.decode]
    · rw [← hdelivering.left, hpolled.leaves]
    · rw [Server.get?_keep_of_mem _ _ _ _ hid, hopen]
      rfl

theorem Sound.close_unopened (h : streams.Sound start) {index : Nat} {held : HeldCursor}
    (hheld : streams.cursors[index]? = some held) (hturn : held.turn? = none) :
    (streams.close draw index held).Sound start := by
  have hsound := h.held held (List.mem_of_getElem? hheld)
  obtain ⟨_, _, compiled, _, hcursor⟩ := hsound.unopened hturn
  have hhost : (held.cursor.close.run.run (Host.answerFrom draw) streams.host).2 =
      streams.host := by
    rw [Host.run_close, hcursor]
    rfl
  unfold Streams.close
  rw [hhost]
  refine h.replace hheld h.failures rfl h.scripted (Nat.le_refl _) ?_ (Nat.le_refl _)
    (fun turn hmine => Or.inl hmine) (fun id hid => Or.inl hid) (fun id hid => hid) fun _ _ => rfl
  exact ⟨hsound.decode, hsound.database, hsound.binds, hsound.unopened,
    fun turn hsome => by simp [hturn] at hsome⟩

theorem Sound.close_opened (h : streams.Sound start) {index : Nat} {held : HeldCursor}
    (hheld : streams.cursors[index]? = some held) (hopen : held.isClosed = false) {turn : Nat}
    (hturn : held.turn? = some turn) : (streams.close draw index held).Sound start := by
  have hsound := h.held held (List.mem_of_getElem? hheld)
  obtain ⟨rest, size, hdelivering⟩ := hsound.opened turn hturn
  obtain ⟨database, hdatabase, _⟩ := hsound.binds
  rw [← h.databases, ← hsound.database] at hdatabase
  unfold Streams.close
  rw [Host.close_of_stands h.failures hdatabase hdelivering.stands (hdelivering.kept_open hopen)]
  refine h.replace hheld h.failures (by simp) (by simp [h.scripted]) (by simp) ?_
    (Nat.le_refl _) (fun turn hmine => Or.inl (by simpa [hturn] using hmine))
    (fun id hid => Or.inl hid) (fun id hid => hid)
    fun id hother => Server.get?_keep_of_not_mem _ _ _ _ hother
  refine ⟨hsound.decode, hsound.database, hsound.binds, hsound.unopened, fun other hother => ?_⟩
  obtain rfl : turn = other := Option.some.inj (hturn.symm.trans hother)
  refine ⟨rest, size, hdelivering.positive, hdelivering.stands, hdelivering.left,
    hdelivering.brought, hdelivering.counted, fun id hid => ?_⟩
  rw [Server.get?_keep_of_mem _ _ _ _ hid]
  rfl

omit [CustomCodecs] in
theorem held?_eq_some {index : Nat} {held : HeldCursor} (h : streams.held? index = some held) :
    streams.cursors[index]? = some held ∧ held.isClosed = false := by
  obtain ⟨hheld, hopen⟩ := Option.filter_eq_some_iff.1 h
  exact ⟨hheld, by simpa using hopen⟩

/-- A move keeps the invariant, if what it makes a cursor of binds only what exists. -/
theorem Sound.play (h : streams.Sound start) {move : Move}
    (hbinds : ∀ source, move = .make source → source.BindsExisting start.server) :
    (streams.play draw move).Sound start := by
  cases move with
  | make source => exact h.make (hbinds source rfl)
  | poll index spare =>
      unfold Streams.play
      dsimp only
      split
      · rename_i held hheld
        obtain ⟨hheld, hopen⟩ := held?_eq_some hheld
        cases hturn : held.turn? with
        | none => exact h.poll_unopened hheld hopen hturn spare
        | some turn => exact h.poll_opened hheld hopen hturn spare
      · exact h
  | close index =>
      unfold Streams.play
      dsimp only
      split
      · rename_i held hheld
        obtain ⟨hheld, hopen⟩ := held?_eq_some hheld
        cases hturn : held.turn? with
        | none => exact h.close_unopened hheld hturn
        | some turn => exact h.close_opened hheld hopen hturn
      · exact h

theorem Sound.run (h : streams.Sound start) {moves : List Move}
    (hbinds : ∀ source, Move.make source ∈ moves → source.BindsExisting start.server) :
    (streams.run draw moves).Sound start := by
  induction moves generalizing streams with
  | nil => exact h
  | cons move moves ih =>
      have hmove : (streams.play draw move).Sound start := h.play fun source heq =>
        hbinds source (heq ▸ List.mem_cons_self)
      exact ih hmove fun source hmem => hbinds source (List.mem_cons_of_mem _ hmem)

theorem Sound.delivers (h : streams.Sound start) (hnumbered : start.server.Numbered) :
    streams.Delivers start where
  once := fun held hmem => (h.held held hmem).deliversOnce
  kept := fun held hmem => (h.held held hmem).keptWhileNeeded
  turns := h.turns
  apart := h.apart
  fresh := by
    intro held hmem id hid
    obtain ⟨n, hn, _, rfl⟩ := h.numbered held hmem id hid
    exact hnumbered.get?_eq_none hn
  others := h.others

/-- However polls and closes are interleaved, every cursor delivers the result of its turn once and
in order, and the server keeps what remains of it and nothing else. -/
theorem exactly_once {host : Host} (hhost : host.Reached draw) (hfailures : host.failures = [])
    (moves : List Move)
    (hbinds : ∀ source, Move.make source ∈ moves → source.BindsExisting host.server) :
    ((Streams.start host).run draw moves).Delivers host :=
  ((sound_start hfailures).run hbinds).delivers hhost.numbered

end Streams

end

namespace Streams

attribute [local instance] CustomCodecs.none

def berths : Collection where
  database := ⟨{ Config.default with batchSize := some 2 }, Registry.empty⟩
  schema :=
    ⟨"berths", .document, [⟨"name", .primitive .string, true, none, false, none⟩], false, []⟩

/-- A server with a collection of berths, the results of two queries scripted on it; one row of the
first is no object. -/
def berthHost : Host :=
  let host := (Host.answerFrom Host.revision ⟨Server.new ["_system"], [], 0⟩
    ⟨.post, Http.apiPath "_system" ["collection"], [],
      some (.ofMembers [("name", .string "berths"), ("type", .ofNat 2)])⟩).2
  let scripted := host.server.script [.object [("name", .string "East")], .null,
    .object [("name", .string "West")], .object [], .null] none
  { host with server := scripted.script [.bool true, .bool false] none }

theorem reached_berthHost : berthHost.Reached Host.revision :=
  .script (.script (.answer (.start ["_system"]) _) _ _) _ _

/-- Two cursors over berths: the one that was made last opens first and is closed halfway. -/
def berthMoves : List Move := [.make (.ofJson berths.database (.ofSchema berths.schema)),
  .make (.ofAll berths), .poll 1 0, .poll 0 0, .poll 1 0, .poll 0 3, .poll 1 0, .close 1, .poll 0 0]

/-- A query that binds no collection but the berths can be asked of the host. -/
theorem bindsExisting_berths {source : CursorSource} {vars : Json.Members}
    (hname : source.config.database = "_system")
    (hvars : (source.query.compile.toOption.map (·.bindVars)) = some vars)
    (honly : ∀ name value, (name, value) ∈ vars → name.toList.head? = some '@' →
      value = .string "berths") : source.BindsExisting berthHost.server := by
  have hdatabase : (berthHost.server.databases.get? "_system").isSome := by decide +kernel
  have hexists : ∀ database ∈ berthHost.server.databases.get? "_system",
      database.collections.contains "berths" = true := by decide +kernel
  obtain ⟨database, hdatabase⟩ := Option.isSome_iff_exists.1 hdatabase
  refine ⟨database, hname ▸ hdatabase, fun compiled hcompiled name value hmem hcollection => ?_⟩
  rw [hcompiled] at hvars
  obtain rfl : compiled.bindVars = vars := Option.some.inj hvars
  exact ⟨"berths", honly name value hmem hcollection, hexists database hdatabase⟩

theorem binds_berths {source : CursorSource} (hsource : Move.make source ∈ berthMoves) :
    source.BindsExisting berthHost.server := by
  have hdata : source.config.database = "_system" ∧
      (source.query.compile.toOption.map (·.bindVars)) =
        some [("@collection_0", .string "berths")] := by
    simp only [berthMoves, List.mem_cons, Move.make.injEq, reduceCtorEq, List.not_mem_nil,
      or_false] at hsource
    rcases hsource with rfl | rfl
    · exact ⟨rfl, by decide +kernel⟩
    · exact ⟨rfl, by decide +kernel⟩
  refine bindsExisting_berths hdata.1 hdata.2 fun name value hmem _ => ?_
  exact (Prod.mk.inj (List.mem_singleton.1 hmem)).2

/-- The cursor that opened first has brought three of five rows, and what was kept for it was given
up; the other one has come to its end. -/
theorem exactly_once_berths :
    ((Streams.start berthHost).run Host.revision berthMoves).Delivers berthHost ∧
      ((Streams.start berthHost).run Host.revision berthMoves).cursors.map
        (fun held => (held.turn?, held.polls.map Cursor.Poll.isItem, held.filed?)) =
          [(some 1, [true, true, false], none), (some 0, [true, true, true], some "1")] ∧
      ((Streams.start berthHost).run Host.revision berthMoves).host.server.openCursors = 0 :=
  ⟨exactly_once reached_berthHost rfl berthMoves fun _ => binds_berths, by decide +kernel,
    by decide +kernel⟩

end Streams

end DocGraph
