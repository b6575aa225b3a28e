import DocGraph.Proofs.Assoc
import DocGraph.Proofs.World.Graphs
import Mathlib.Data.List.Nodup
/-!
# Clients that make sure of one collection together

Several clients share a server, and their requests reach it in any order.  Each of them looks the
collection up and creates it if it was not there.  So only one client can create it, and another
that had looked it up before is told that the name is taken; that client fails, though the
collection it asked for is there.
-/

namespace DocGraph

theorem Table.count_keys_of_mem {α : Type} {table : Table α} {key : String} {value : α}
    (h : value ∈ table.get? key) : table.keys.count key = 1 := by
  refine List.count_eq_one_of_mem (Assoc.nodup_keys table.sorted) ?_
  by_contra hmissing
  exact nomatch (Assoc.get?_eq_none_of_not_mem hmissing).symm.trans h

/-! ## Clients that take turns -/

def Exchange.advance {α : Type} (draw : Nat → String) : Exchange α → Host → Exchange α × Host
  | .done result, host => (.done result, host)
  | .ask request resume, host =>
    let (answer, host) := host.answerFrom draw request
    (resume answer, host)

theorem Exchange.advance_ask {α : Type} {draw : Nat → String} {request : Request}
    {resume : Answer → Exchange α} {host after : Host} {reply : Answer}
    (h : host.answerFrom draw request = (reply, after)) :
    (ask request resume).advance draw host = (resume reply, after) := by
  rw [advance, h]

/-- A host, and what each of its clients has still to ask. -/
structure Crowd (α : Type) where
  host : Host
  clients : List (Exchange α)

namespace Crowd

variable {α : Type}

def turn (draw : Nat → String) (crowd : Crowd α) (i : Nat) : Crowd α :=
  match crowd.clients[i]? with
  | some client =>
    let (client, host) := client.advance draw crowd.host
    ⟨host, crowd.clients.set i client⟩
  | none => crowd

def run (draw : Nat → String) (crowd : Crowd α) (schedule : List Nat) : Crowd α :=
  schedule.foldl (turn draw) crowd

def outcome? (crowd : Crowd α) (i : Nat) : Option α :=
  match crowd.clients[i]? with
  | some (.done result) => some result
  | _ => none

end Crowd

/-! ## How far the clients have got -/

/-- How far a client has got that makes sure of a collection. -/
inductive Stage where
  | looking
  | creating
  | ended (result : Except Error Unit)

namespace Stage

def next (isThere : Bool) : Stage → Stage
  | looking => if isThere then ended (.ok ()) else creating
  | creating => ended (if isThere then .error .nameTaken else .ok ())
  | ended result => ended result

def creates : Stage → Bool
  | creating => true
  | _ => false

def left : Stage → Nat
  | looking => 2
  | creating => 1
  | ended _ => 0

theorem next_next_of_there (stage : Stage) : (stage.next true).next true = stage.next true := by
  cases stage <;> rfl

theorem left_next (isThere : Bool) (stage : Stage) :
    (stage.next isThere).left ≤ stage.left - 1 := by
  cases stage <;> cases isThere <;> simp [next, left]

theorem eq_ended_of_left {stage : Stage} (h : stage.left = 0) : ∃ result, stage = ended result := by
  cases stage with
  | looking => exact absurd h (by decide)
  | creating => exact absurd h (by decide)
  | ended result => exact ⟨result, rfl⟩

end Stage

/-- How far each client has got, and whether the collection is there. -/
structure Race where
  stage : Nat → Stage
  isThere : Bool

namespace Race

def start (isThere : Bool) : Race := ⟨fun _ => .looking, isThere⟩

def turn (race : Race) (i : Nat) : Race where
  stage j := if j = i then (race.stage i).next race.isThere else race.stage j
  isThere := race.isThere || (race.stage i).creates

def run (race : Race) (schedule : List Nat) : Race := schedule.foldl turn race

theorem left_run (race : Race) (schedule : List Nat) (i : Nat) :
    ((race.run schedule).stage i).left ≤ (race.stage i).left - schedule.count i := by
  induction schedule generalizing race with
  | nil => exact Nat.le_refl _
  | cons j schedule ih =>
      refine (ih (race.turn j)).trans ?_
      by_cases hi : i = j
      · subst hi
        have hnext := Stage.left_next race.isThere (race.stage i)
        simp only [turn, if_true, List.count_cons_self]
        omega
      · simp only [turn, if_neg hi, List.count_cons_of_ne (Ne.symm hi), le_refl]

/-- Once the collection is there, a client is done at its next turn. -/
theorem run_of_there {race : Race} (h : race.isThere = true) (schedule : List Nat) :
    (race.run schedule).isThere = true ∧ ∀ i, (race.run schedule).stage i =
      if i ∈ schedule then (race.stage i).next true else race.stage i := by
  induction schedule generalizing race with
  | nil => exact ⟨h, fun i => rfl⟩
  | cons j schedule ih =>
      have hturn : (race.turn j).isThere = true := by simp [turn, h]
      obtain ⟨hthere, hstage⟩ := ih hturn
      refine ⟨hthere, fun i => (hstage i).trans ?_⟩
      by_cases hi : i = j
      · subst hi
        simp [turn, h, Stage.next_next_of_there]
      · simp [turn, hi]

theorem run_of_nodup {race : Race} {early : List Nat} (hthere : race.isThere = false)
    (hearly : early.Nodup) (hstage : ∀ i ∈ early, race.stage i = .looking) :
    race.run early = ⟨fun i => if i ∈ early then .creating else race.stage i, false⟩ := by
  induction early generalizing race with
  | nil => simp [run, ← hthere]
  | cons j early ih =>
      -- Whoever comes later is still looking, for the client that came now is another one.
      obtain ⟨hfirst, hrest⟩ := List.nodup_cons.1 hearly
      obtain ⟨hj, hstage⟩ := List.forall_mem_cons.1 hstage
      have hturn : (race.turn j).isThere = false := by simp [turn, hthere, hj, Stage.creates]
      have hlooking : ∀ i ∈ early, (race.turn j).stage i = .looking := by
        intro i hi
        have hne : i ≠ j := fun h => hfirst (h ▸ hi)
        simp only [turn, if_neg hne, hstage i hi]
      refine (ih hturn hrest hlooking).trans ?_
      congr 1
      funext i
      by_cases hi : i = j
      · subst hi
        simp [turn, hthere, hj, hfirst, Stage.next]
      · simp [turn, hi]

/-- Either no client comes a second time, or one does so first. -/
theorem exists_first_twice (schedule : List Nat) :
    schedule.Nodup ∨ ∃ early winner late, schedule = early ++ winner :: late ∧ early.Nodup ∧
      winner ∈ early := by
  induction schedule using List.reverseRecOn with
  | nil => exact .inl List.nodup_nil
  | append_singleton schedule i ih =>
      rcases ih with hnodup | ⟨early, winner, late, rfl, hearly, hwinner⟩
      · by_cases hi : i ∈ schedule
        · exact .inr ⟨schedule, i, [], rfl, hnodup, hi⟩
        · exact .inl (by simpa using List.Nodup.concat hi hnodup)
      · exact .inr ⟨early, winner, late ++ [i], by simp, hearly, hwinner⟩

/-- The first client that comes a second time creates the collection. -/
theorem run_of_first_twice {early : List Nat} {winner : Nat} (hearly : early.Nodup)
    (hwinner : winner ∈ early) (late : List Nat) :
    let race := (start false).run (early ++ winner :: late)
    race.isThere = true ∧ ∀ i, race.stage i =
      if i = winner then .ended (.ok ())
      else if i ∈ early then if i ∈ late then .ended (.error .nameTaken) else .creating
      else if i ∈ late then .ended (.ok ()) else .looking := by
  intro race
  have hbefore : (start false).run early =
      ⟨fun i => if i ∈ early then .creating else .looking, false⟩ :=
    run_of_nodup rfl hearly fun _ _ => rfl
  have hafter : (((start false).run early).turn winner) =
      ⟨fun i => if i = winner then .ended (.ok ())
        else if i ∈ early then .creating else .looking, true⟩ := by
    rw [hbefore]
    simp [turn, hwinner, Stage.creates, Stage.next]
  have hrace : race = (((start false).run early).turn winner).run late := by
    simp [race, run]
  have hwon : (((start false).run early).turn winner).isThere = true := by rw [hafter]
  obtain ⟨hthere, hstage⟩ := run_of_there hwon late
  rw [hafter] at hstage
  rw [hrace, hafter]
  refine ⟨hafter ▸ hthere, fun i => (hstage i).trans ?_⟩
  dsimp only
  split_ifs <;> simp [Stage.next]

/-- A client comes for the first time before, and for the second time after another client that is
the first of all to come a second time. -/
def Outrun (schedule : List Nat) (i : Nat) : Prop :=
  ∃ early winner late, schedule = early ++ winner :: late ∧ early.Nodup ∧ winner ∈ early ∧
    i ∈ early ∧ winner ≠ i

theorem stage_of_outrun {schedule : List Nat} {i : Nat} (h : Outrun schedule i) :
    ((start false).run schedule).stage i = .creating ∨
      ((start false).run schedule).stage i = .ended (.error .nameTaken) := by
  obtain ⟨early, winner, late, rfl, hearly, hwinner, hi, hne⟩ := h
  rw [(run_of_first_twice hearly hwinner late).2, if_neg hne.symm, if_pos hi]
  by_cases hlate : i ∈ late
  · exact .inr (if_pos hlate)
  · exact .inl (if_neg hlate)

theorem result_of_ended {isThere : Bool} {schedule : List Nat} {i : Nat}
    {result : Except Error Unit}
    (h : ((start isThere).run schedule).stage i = .ended result) :
    ((start isThere).run schedule).isThere = true ∧
      (result = .ok () ∧ ¬ (isThere = false ∧ Outrun schedule i) ∨
        result = .error .nameTaken ∧ isThere = false ∧ Outrun schedule i) := by
  cases isThere with
  | true =>
      have hstart : (start true).isThere = true := rfl
      obtain ⟨hthere, hstage⟩ := run_of_there hstart schedule
      refine ⟨hthere, .inl ⟨?_, by simp⟩⟩
      rw [hstage] at h
      split at h
      · exact (Stage.ended.inj h).symm
      · exact nomatch h
  | false =>
      rcases exists_first_twice schedule with hnodup | ⟨early, winner, late, rfl, hearly, hwinner⟩
      · have hrun : (start false).run schedule = _ := run_of_nodup rfl hnodup fun _ _ => rfl
        rw [hrun] at h
        dsimp only [start] at h
        split at h <;> exact nomatch h
      obtain ⟨hthere, hstage⟩ := run_of_first_twice hearly hwinner late
      refine ⟨hthere, ?_⟩
      -- Another split might show that the client was outrun; its stage settles that there is none.
      by_cases hout : Outrun (early ++ winner :: late) i
      · rcases stage_of_outrun hout with hcreating | hended
        · exact nomatch hcreating.symm.trans h
        · exact .inr ⟨(Stage.ended.inj (hended.symm.trans h)).symm, rfl, hout⟩
      · refine .inl ⟨?_, fun hmissing => hout hmissing.2⟩
        rw [hstage] at h
        split_ifs at h with hfirst hbefore
        · exact (Stage.ended.inj h).symm
        · exact absurd ⟨early, winner, late, rfl, hearly, hwinner, hbefore, Ne.symm hfirst⟩ hout
        · exact (Stage.ended.inj h).symm

end Race

/-! ## What is asked at a stage -/

variable {draw : Nat → String} {host : Host} {stored : StoredDatabase} {name : String}
  {type : CollectionType}

def Stage.exchange (database : Database) (name : String) (type : CollectionType) :
    Stage → Exchange (Except Error Unit)
  | looking => (database.ensureNamed name type).run
  | creating => database.creation name type
  | ended result => .done result

theorem Stage.advance_exchange {database : Database}
    (hready : host.Ready database.config.database stored) (hfits : stored.Fits name type)
    (stage : Stage) :
    (stage.exchange database name type).advance draw host =
      ((stage.next (stored.collections.get? name).isSome).exchange database name type,
        if stage.creates then
          host.putDatabase database.config.database (stored.ensure name type)
        else host) := by
  cases stage with
  | looking =>
      rw [exchange, Database.run_ensureNamed,
        Exchange.advance_ask (Host.answerFrom_lookup hready name)]
      cases hname : stored.collections.get? name with
      | some found =>
          rw [Database.afterLookup_of_some database hname, if_pos (hfits found hname)]
          rfl
      | none =>
          rw [Database.afterLookup_of_none database hname]
          rfl
  | creating =>
      rw [exchange, Database.creation,
        Exchange.advance_ask (Host.answerFrom_creation hready name type),
        Database.received_creation]
      cases stored.collections.get? name <;> rfl
  | ended result => rfl

namespace Crowd

structure Follows (crowd : Crowd (Except Error Unit)) (host : Host) (place : String)
    (stored : StoredDatabase) (databases : List Database) (name : String)
    (type : CollectionType) (race : Race) : Prop where
  host : crowd.host =
    host.putDatabase place (if race.isThere then stored.ensure name type else stored)
  missing : race.isThere = false → stored.collections.get? name = none
  length : crowd.clients.length = databases.length
  clients : ∀ i database, databases[i]? = some database →
    crowd.clients[i]? = some ((race.stage i).exchange database name type)

variable {crowd : Crowd (Except Error Unit)} {place : String} {databases : List Database}
  {race : Race}

theorem turn_of_client {α : Type} {crowd : Crowd α} {i : Nat} {client : Exchange α}
    (h : crowd.clients[i]? = some client) :
    crowd.turn draw i = ⟨(client.advance draw crowd.host).2,
      crowd.clients.set i (client.advance draw crowd.host).1⟩ := by
  rw [turn, h]

theorem Follows.turn (h : crowd.Follows host place stored databases name type race)
    (hready : host.Ready place stored) (hfits : stored.Fits name type)
    (hplace : ∀ database ∈ databases, database.config.database = place) {i : Nat}
    (hi : i < databases.length) :
    (crowd.turn draw i).Follows host place stored databases name type (race.turn i) := by
  obtain rfl := hplace databases[i] (List.getElem_mem hi)
  have hclient := h.clients i databases[i] (List.getElem?_eq_getElem hi)
  -- The database as it is now answers just like the one at the start, or like the one at the end.
  obtain ⟨current, hcurrent⟩ :
      ∃ current, current = if race.isThere then stored.ensure name type else stored := ⟨_, rfl⟩
  have hthere : (current.collections.get? name).isSome = race.isThere ∧ current.Fits name type ∧
      current.ensure name type = stored.ensure name type := by
    rw [hcurrent]
    cases hrace : race.isThere with
    | true =>
        exact ⟨stored.isSome_ensure name type, StoredDatabase.fits_ensure.2 hfits,
          stored.ensure_ensure name type⟩
    | false => exact ⟨by simp [h.missing hrace], hfits, rfl⟩
  obtain ⟨hthere, hcurrentFits, hensured⟩ := hthere
  have hhost : crowd.host = host.putDatabase databases[i].config.database current :=
    hcurrent ▸ h.host
  have hnow : crowd.host.Ready databases[i].config.database current :=
    hhost ▸ hready.putDatabase current
  rw [turn_of_client hclient, Stage.advance_exchange hnow hcurrentFits, hthere]
  refine ⟨?_, fun hmissing => h.missing (Bool.or_eq_false_iff.1 hmissing).1,
    List.length_set.trans h.length, ?_⟩
  · rw [hhost, Host.putDatabase_putDatabase, hensured, hcurrent]
    cases hcreates : (race.stage i).creates <;> simp [Race.turn, hcreates]
  · intro j database hdatabase
    rw [List.getElem?_set]
    by_cases hj : i = j
    · subst hj
      obtain rfl := Option.some.inj ((List.getElem?_eq_getElem hi).symm.trans hdatabase)
      simp [h.length, hi, Race.turn]
    · simpa [hj, Race.turn, Ne.symm hj] using h.clients j database hdatabase

theorem Follows.run (draw : Nat → String)
    (h : crowd.Follows host place stored databases name type race)
    (hready : host.Ready place stored) (hfits : stored.Fits name type)
    (hplace : ∀ database ∈ databases, database.config.database = place) {schedule : List Nat}
    (hschedule : ∀ i ∈ schedule, i < databases.length) :
    (crowd.run draw schedule).Follows host place stored databases name type
      (race.run schedule) := by
  induction schedule generalizing crowd race with
  | nil => exact h
  | cons i schedule ih =>
      obtain ⟨hi, hschedule⟩ := List.forall_mem_cons.1 hschedule
      exact ih (h.turn hready hfits hplace hi) hschedule

theorem Follows.outcome?_eq_some_iff
    (h : crowd.Follows host place stored databases name type race) {i : Nat}
    {result : Except Error Unit} :
    crowd.outcome? i = some result ↔ i < databases.length ∧ race.stage i = .ended result := by
  unfold outcome?
  by_cases hi : i < databases.length
  · rw [h.clients i databases[i] (List.getElem?_eq_getElem hi)]
    cases hstage : race.stage i with
    | looking => simp [Stage.exchange, Database.run_ensureNamed]
    | creating => simp [Stage.exchange, Database.creation]
    | ended other => simp [Stage.exchange, hi]
  · rw [List.getElem?_eq_none (by rw [h.length]; omega)]
    simp [hi]

/-- What becomes of clients that make sure of one collection, which was or was not there before. -/
structure Ensured (crowd : Crowd (Except Error Unit)) (schedule : List Nat) (host : Host)
    (place : String) (before : StoredDatabase) (name : String) (type : CollectionType) : Prop where
  /-- Two turns are enough for a client. -/
  ends : ∀ i < crowd.clients.length, 2 ≤ schedule.count i → (crowd.outcome? i).isSome
  /-- Only a client that was outrun fails. -/
  results : ∀ i result, crowd.outcome? i = some result →
    result = .ok () ∧ ¬ (before.collections.get? name = none ∧ Race.Outrun schedule i) ∨
      result = .error (.transport (.api ⟨409, 1207, "duplicate name"⟩)) ∧
        before.collections.get? name = none ∧ Race.Outrun schedule i
  /-- The collection is there once a client is done. -/
  there : ∀ i, (crowd.outcome? i).isSome → ∃ after ∈ crowd.host.server.databases.get? place,
    after.collections.keys.count name = 1 ∧ ∃ found ∈ after.collections.get? name, found.type = type
  /-- Nothing else on the server changes. -/
  host : crowd.host = host ∨ crowd.host = host.putDatabase place (before.ensure name type)

end Crowd

namespace Database

def gather (host : Host) (databases : List Database) (schema : Schema) :
    Crowd (Except Error Unit) :=
  ⟨host, databases.map fun database => (database.ensureCollection schema).run⟩

variable {place : String} {databases : List Database} {schema : Schema}

theorem follows_gather (hready : host.Ready place stored)
    (hkind : schema.kind.collectionType? = some type) :
    (gather host databases schema).Follows host place stored databases schema.name type
      (.start (stored.collections.get? schema.name).isSome) where
  host := by
    have hself : (if (stored.collections.get? schema.name).isSome then
        stored.ensure schema.name type else stored) = stored := by
      cases hname : stored.collections.get? schema.name with
      | some found => exact StoredDatabase.ensure_of_some hname
      | none => rfl
    exact (hself ▸ Host.putDatabase_eq_self hready.known).symm
  missing hmissing := by simpa [Race.start] using hmissing
  length := List.length_map _
  clients i database hdatabase := by
    have hclient : database.ensureCollection schema = database.ensureNamed schema.name type := by
      unfold ensureCollection
      rw [hkind]
    simp [gather, hdatabase, hclient, Race.start, Stage.exchange]

/-- Clients make sure of the collection of one schema, and their requests come in any order.
Each of them succeeds, unless the collection was missing and the client was outrun. -/
theorem ensureCollection_together (hready : host.Ready place stored)
    (hkind : schema.kind.collectionType? = some type) (hfits : stored.Fits schema.name type)
    (hplace : ∀ database ∈ databases, database.config.database = place) {schedule : List Nat}
    (hschedule : ∀ i ∈ schedule, i < databases.length) :
    ((gather host databases schema).run draw schedule).Ensured schedule host place stored
      schema.name type := by
  have hfollows := (follows_gather hready hkind).run draw hready hfits hplace hschedule
  constructor
  case ends =>
    intro i hi hcount
    have hleft := Race.left_run (.start (stored.collections.get? schema.name).isSome) schedule i
    have htwo : ((Race.start (stored.collections.get? schema.name).isSome).stage i).left = 2 := rfl
    obtain ⟨result, hresult⟩ := Stage.eq_ended_of_left (Nat.le_zero.1 (hleft.trans (by omega)))
    exact Option.isSome_iff_exists.2
      ⟨result, hfollows.outcome?_eq_some_iff.2 ⟨hfollows.length ▸ hi, hresult⟩⟩
  case results =>
    intro i result hresult
    have hstage := (hfollows.outcome?_eq_some_iff.1 hresult).2
    have hended := (Race.result_of_ended hstage).2
    rwa [Option.isSome_eq_false_iff, Option.isNone_iff_eq_none] at hended
  case there =>
    intro i hdone
    obtain ⟨result, hresult⟩ := Option.isSome_iff_exists.1 hdone
    have hstage := (hfollows.outcome?_eq_some_iff.1 hresult).2
    have hthere := hfollows.host
    rw [(Race.result_of_ended hstage).1, if_pos rfl] at hthere
    obtain ⟨found, hfound⟩ :=
      Option.isSome_iff_exists.1 (stored.isSome_ensure schema.name type)
    refine ⟨stored.ensure schema.name type, ?_, Table.count_keys_of_mem hfound, found, hfound,
      StoredDatabase.fits_ensure.2 hfits found hfound⟩
    rw [hthere]
    exact (hready.putDatabase _).known
  case host =>
    have hhost := hfollows.host
    split at hhost
    · exact .inr hhost
    · exact .inl (hhost.trans (Host.putDatabase_eq_self hready.known))

def users : Schema := ⟨"users", .document, [], false, []⟩

def gatherOnNew (count : Nat) : Crowd (Except Error Unit) :=
  gather ⟨Server.new ["_system"], [], 0⟩
    (List.replicate count ⟨Config.default, Registry.empty⟩) users

theorem ensureCollection_together_users :
    ((gatherOnNew 3).run Host.revision [0, 1, 1, 2, 0]).Ensured [0, 1, 1, 2, 0]
      ⟨Server.new ["_system"], [], 0⟩ "_system" .new "users" .document :=
  ensureCollection_together ⟨rfl, rfl⟩ rfl (by decide) (by decide) (by decide)

/-- Two clients look a missing collection up before either creates it, and the second one fails. -/
theorem not_ensureCollection_together_outrun :
    let crowd := (gatherOnNew 2).run Host.revision [0, 1, 0, 1]
    StoredDatabase.new.collections.get? "users" = none ∧ crowd.outcome? 0 = some (.ok ()) ∧
      crowd.outcome? 1 = some (.error (.transport (.api ⟨409, 1207, "duplicate name"⟩))) :=
  ⟨by decide, by decide +kernel, by decide +kernel⟩

end Database

end DocGraph
