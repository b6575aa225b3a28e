import DocGraph.Proofs.Server.Cursors
/-!
# Cursors under other numbers

The number of a cursor shows in the paths that name it and in the answers that bring it.  Two
servers that keep the same cursor under different numbers answer alike but for that number.
-/

namespace DocGraph

open Outcome

/-! ## Numbers in answers -/

def Json.renumber (numbering : String → String) : Json → Json
  | .object members =>
    match Assoc.get? "id" members with
    | some (.string id) => .object (Assoc.insert "id" (.string (numbering id)) members)
    | _ => .object members
  | json => json

def Response.renumber (numbering : String → String) (response : Response) : Response :=
  { response with body := response.body.renumber numbering }

section Numbering

variable (numbering : String → String)

theorem Json.renumber_ofMembers_of_not_mem {members : Json.Members}
    (h : "id" ∉ members.map Prod.fst) :
    (Json.ofMembers members).renumber numbering = .ofMembers members := by
  have hnone : Assoc.get? "id" (Assoc.ofList members) = none := by
    refine Assoc.get?_eq_none_of_not_mem fun hmem => h ?_
    obtain ⟨entry, hentry, hname⟩ := List.mem_map.1 hmem
    exact List.mem_map.2 ⟨entry, Assoc.mem_of_mem_ofList hentry, hname⟩
  simp only [Json.ofMembers, Json.renumber, hnone]

theorem Json.renumber_ofMembers (before after : Json.Members) {id : String}
    (h : (before.map Prod.fst ++ "id" :: after.map Prod.fst).Nodup) :
    (Json.ofMembers (before ++ ("id", .string id) :: after)).renumber numbering =
      .ofMembers (before ++ ("id", .string (numbering id)) :: after) := by
  have hnodup (value : Json) : ((before ++ ("id", value) :: after).map Prod.fst).Nodup := by
    simpa using h
  have hid : Assoc.get? "id" (Assoc.ofList (before ++ ("id", .string id) :: after)) =
      some (.string id) := by
    rw [Assoc.get?_ofList (hnodup _)]
    exact Assoc.get?_eq_some_of_mem (hnodup _) (by simp)
  simp only [Json.ofMembers, Json.renumber, hid]
  refine congrArg Json.object (Assoc.eq_of_get?_eq (Assoc.sorted_insert (Assoc.sorted_ofList _))
    (Assoc.sorted_ofList _) fun name => ?_)
  rw [Assoc.get?_insert, Assoc.get?_ofList (hnodup _), Assoc.get?_ofList (hnodup _)]
  split
  · rename_i hname
    rw [← hname]
    exact (Assoc.get?_eq_some_of_mem (hnodup _) (by simp)).symm
  · rename_i hname
    have hbeq : (name == "id") = false := by simpa using Ne.symm hname
    simp [← Assoc.lookup_eq_get?, List.lookup_append, List.lookup_cons, hbeq]

theorem Refusal.renumber_response (refusal : Refusal) :
    refusal.response.renumber numbering = refusal.response := by
  have hdetails : "id" ∉ refusal.details.map Prod.fst := by
    cases refusal with
    | revisionConflict current =>
        simp only [Refusal.details, identityMembers, List.mem_map, List.mem_filterMap]
        rintro ⟨_, ⟨name, hname, hmember⟩, hid⟩
        obtain ⟨_, _, rfl⟩ := Option.map_eq_some_iff.1 hmember
        obtain rfl : name = "id" := hid
        simp at hname
    | _ => simp [Refusal.details]
  unfold Response.renumber Refusal.response
  dsimp only
  rw [Json.renumber_ofMembers_of_not_mem numbering (by simpa using hdetails)]

/-! ## Numbers in requests -/

namespace Request

def database? (request : Request) : Option String :=
  (Http.parsePath? request.path).map Prod.fst

def cursor? (request : Request) : Option String :=
  match request.method, Http.parsePath? request.path with
  | .put, some (_, ["cursor", id]) => some id
  | .post, some (_, ["cursor", id]) => some id
  | .delete, some (_, ["cursor", id]) => some id
  | _, _ => none

def opensCursor (request : Request) : Bool :=
  match request.method, Http.parsePath? request.path with
  | .post, some (_, ["cursor"]) => true
  | _, _ => false

def renumber (numbering : String → String) (request : Request) : Request :=
  match request.database?, request.cursor? with
  | some name, some id => { request with path := Http.apiPath name ["cursor", numbering id] }
  | _, _ => request

/-- The answer to a request with another number for the cursor that it brings.  Only answers about
cursors bring one; elsewhere `id` is the name of a collection or of an index. -/
def renumberAnswer (request : Request) (numbering : String → String) (response : Response) :
    Response :=
  if request.cursor?.isSome || request.opensCursor then response.renumber numbering else response

variable {request : Request} {name id : String}

theorem cursor?_eq_some_iff : request.cursor? = some id ↔
    (request.method = .put ∨ request.method = .post ∨ request.method = .delete) ∧
      ∃ name, Http.parsePath? request.path = some (name, ["cursor", id]) := by
  unfold cursor?
  constructor
  · intro h
    split at h
    case h_4 => cases h
    all_goals
      rename_i hmethod hpath
      obtain rfl := Option.some.inj h
      exact ⟨by simp [hmethod], _, hpath⟩
  · rintro ⟨hmethod | hmethod | hmethod, name, hpath⟩ <;> simp [hmethod, hpath]

theorem opensCursor_iff : request.opensCursor = true ↔
    request.method = .post ∧ ∃ name, Http.parsePath? request.path = some (name, ["cursor"]) := by
  unfold opensCursor
  constructor
  · intro h
    split at h
    case h_2 => cases h
    rename_i hmethod hpath
    exact ⟨hmethod, _, hpath⟩
  · rintro ⟨hmethod, name, hpath⟩
    simp [hmethod, hpath]

theorem renumber_of_none (hcursor : request.cursor? = none) :
    request.renumber numbering = request := by
  unfold renumber
  rw [hcursor]
  split
  · rename_i hid
    cases hid
  · rfl

theorem renumber_of_some (haddressed : request.database? = some name)
    (hcursor : request.cursor? = some id) : request.renumber numbering =
      { request with path := Http.apiPath name ["cursor", numbering id] } := by
  simp only [renumber, haddressed, hcursor]

theorem database?_renumber (request : Request) :
    (request.renumber numbering).database? = request.database? := by
  unfold renumber
  split
  · rename_i name id haddressed _
    simp only [database?, Http.parsePath?_apiPath, Option.map_some]
    exact haddressed.symm
  · rfl

theorem cursor?_renumber (haddressed : request.database? = some name)
    (hcursor : request.cursor? = some id) :
    (request.renumber numbering).cursor? = some (numbering id) := by
  rw [renumber_of_some numbering haddressed hcursor, cursor?_eq_some_iff]
  have hparse := Http.parsePath?_apiPath name ["cursor", numbering id]
  exact ⟨(cursor?_eq_some_iff.1 hcursor).1, name, hparse⟩

end Request

end Numbering

/-! ## Cursors by their number -/

namespace Server

def nextId (server : Server) : String := toString (server.lastCursor + 1)

def serveCursor (server : Server) (method : Method) (id : String) : Ruling (Granted Server) :=
  if method = .delete then server.closeCursor id else server.nextBatch id

variable {left right : Server} {numbering : String → String} {id other : String}

theorem serveCursor_of_none (h : left.cursors.get? id = none) (method : Method) :
    left.serveCursor method id = .error .cursorNotFound := by
  unfold serveCursor closeCursor nextBatch
  rw [h]
  split <;> rfl

theorem serveCursor_of_some {cursor : StoredCursor} (h : left.cursors.get? id = some cursor)
    (method : Method) : ∃ response, left.serveCursor method id = .ok ⟨response, left.refile id
      (if method = .delete then [] else cursor.rows.drop cursor.batchSize) cursor.batchSize⟩ := by
  unfold serveCursor
  split
  · obtain ⟨body, hclose⟩ := closeCursor_eq h
    exact ⟨⟨202, body⟩, hclose⟩
  · obtain ⟨body, hnext, _⟩ := nextBatch_eq h
    exact ⟨⟨200, body⟩, hnext⟩

/-! ## The same under two numbers -/

theorem response_settle_renumber {first second : Ruling (Granted Server)}
    (h : second.map (·.response) = first.map (·.response.renumber numbering)) :
    (right.settle second).response = (left.settle first).response.renumber numbering := by
  cases first with
  | error refusal =>
      cases second with
      | error refusal' =>
          obtain rfl : refusal' = refusal := Except.error.inj h
          exact (Refusal.renumber_response ..).symm
      | ok granted => cases h
  | ok granted =>
      cases second with
      | error refusal => cases h
      | ok granted' => exact Except.ok.inj h

theorem serveCursor_renumber (hsame : right.cursors.get? other = left.cursors.get? id)
    (hnumber : (left.cursors.get? id).isSome → numbering id = other) (method : Method) :
    (right.serveCursor method other).map (·.response) =
      (left.serveCursor method id).map (·.response.renumber numbering) := by
  unfold serveCursor closeCursor nextBatch
  rw [hsame]
  cases hcursor : left.cursors.get? id with
  | none => split <;> rfl
  | some cursor =>
      obtain rfl := hnumber (by simp [hcursor])
      split
      · refine congrArg (fun body => Except.ok (Response.mk 202 body)) ?_
        exact (Json.renumber_ofMembers numbering []
          [("error", .bool false), ("code", .ofNat 202)] (by simp)).symm
      · refine congrArg (fun body => Except.ok (Response.mk 200 body)) ?_
        exact (Json.renumber_ofMembers numbering
          [("result", .array (cursor.rows.take cursor.batchSize)),
            ("hasMore", .bool (!(cursor.rows.drop cursor.batchSize).isEmpty))] [] (by simp)).symm

theorem openCursor_renumber (hscripted : right.scripted = left.scripted)
    (hnumber : numbering left.nextId = right.nextId) (database : StoredDatabase)
    (body : Option Json) : (right.openCursor database body).map (·.response) =
      (left.openCursor database body).map (·.response.renumber numbering) := by
  simp only [openCursor, hscripted, throw_eq_error, error_bind]
  cases body.bind Json.asObject? with
  | none => rfl
  | some members =>
      dsimp only
      cases (queryText? members).isNone with
      | true => rfl
      | false =>
          cases collectionsExist database members with
          | false => rfl
          | true =>
              simp only [Bool.not_true, Bool.false_eq_true, if_false]
              generalize isTrue (Assoc.get? "count" members) = counts
              split <;> simp only [grant, Except.map, Response.renumber]
              · rw [Json.renumber_ofMembers_of_not_mem numbering (by cases counts <;> simp)]
              · unfold nextId at hnumber
                rw [Json.renumber_ofMembers numbering _ [] (by cases counts <;> simp), hnumber]

end Server

end DocGraph
