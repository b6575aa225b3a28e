import DocGraph.Proofs.Outcome
import DocGraph.Proofs.Server.Documents
/-!
# What a client makes of a refusal

A refusal never looks like a success.  One for want of a document is told apart from one for a
revision that is out of date, which brings the revision that is current.
-/

namespace DocGraph.Refusal

theorem isSuccess_response (refusal : Refusal) : refusal.response.isSuccess = false := by
  cases refusal <;> rfl

theorem apiError_code (refusal : Refusal) :
    refusal.response.apiError.code = refusal.describe.1 := by
  cases refusal <;> rfl

theorem check_ne_ok (refusal : Refusal) (what : String) (body : Json) :
    refusal.response.check what ≠ .ok body := by
  unfold Response.check
  rw [if_neg (by simp [isSuccess_response])]
  dsimp only
  split
  · simp
  · split
    · simp
    · split <;> simp

theorem check_of_not_found {refusal : Refusal} (h : refusal.describe.1 = 404) (what : String) :
    ∃ cause, refusal.response.check what = .error (.notFound what cause) := by
  unfold Response.check
  rw [if_neg (by simp [isSuccess_response])]
  dsimp only
  rw [apiError_code, if_pos h]
  exact ⟨_, rfl⟩

theorem ofList_concat {α : Type} (entries : List (String × α)) (key : String) (value : α) :
    Assoc.ofList (entries ++ [(key, value)]) = Assoc.insert key value (Assoc.ofList entries) := by
  simp [Assoc.ofList, List.foldl_append]

theorem member?_rev_of_conflict {current : Json.Members} {id key rev : String}
    (h : StoredDatabase.Identified current id key rev) :
    (revisionConflict current).response.body.member? "_rev" = some (.string rev) := by
  have hbody : (revisionConflict current).response.body = .ofMembers ([
      ("error", .bool true), ("code", .ofNat 412), ("errorNum", .ofNat 1200),
      ("errorMessage", .string "conflict, _rev values do not match"),
      ("_id", .string id), ("_key", .string key)] ++ [("_rev", .string rev)]) := by
    show Json.ofMembers (_ ++ identityMembers current) = _
    rw [StoredDatabase.identityMembers_of_identified h]
    rfl
  rw [hbody, Json.ofMembers, Json.member?, ofList_concat, Assoc.get?_insert_self]

theorem check_of_conflict {current : Json.Members} {id key rev : String}
    (h : StoredDatabase.Identified current id key rev) (what : String) :
    ∃ cause, (revisionConflict current).response.check what =
      .error (.conflict what (some rev) cause) := by
  have hcode : (revisionConflict current).response.apiError.code = 412 := rfl
  unfold Response.check
  rw [if_neg (by simp [isSuccess_response])]
  dsimp only
  rw [hcode, if_neg (by decide), if_pos (Or.inl rfl), member?_rev_of_conflict h]
  exact ⟨_, rfl⟩

end DocGraph.Refusal
