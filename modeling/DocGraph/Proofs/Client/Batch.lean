import DocGraph.Client.Cursor
import DocGraph.Proofs.Assoc
import DocGraph.Proofs.Outcome
/-!
# Batches as they are read

A batch is read from the members of an object by their names, so what is read depends on nothing
but what stands under the five names of its parts.
-/

namespace DocGraph

namespace Assoc

variable {α : Type}

theorem length_filter_key_le {entries : List (String × α)}
    (h : (entries.map Prod.fst).Nodup) (key : String) :
    (entries.filter (·.1 = key)).length ≤ 1 := by
  induction entries with
  | nil => simp
  | cons head rest ih =>
      obtain ⟨hhead, hrest⟩ := List.nodup_cons.1 h
      by_cases hkey : head.1 = key
      · have hnone : rest.filter (·.1 = key) = [] := by
          refine List.filter_eq_nil_iff.2 fun entry hmem => ?_
          have hne : entry.1 ≠ key := by
            rintro rfl
            exact hhead (hkey ▸ List.mem_map_of_mem hmem)
          simpa using hne
        simp [hkey, hnone]
      · simpa [hkey] using ih hrest

end Assoc

theorem Json.asUInt64?_ofUInt64 (n : UInt64) : (Json.ofUInt64 n).asUInt64? = some n := by
  simp [asUInt64?, ofUInt64]

namespace Json.Read

theorem fields_ofMembers (names : List String) (members : Members) :
    fields names (ofMembers members) = some (.named (Assoc.ofList members)) := by
  have hall : names.all fun name =>
      decide (((Assoc.ofList members).filter (·.1 = name)).length ≤ 1) := by
    refine List.all_eq_true.2 fun name _ => decide_eq_true ?_
    exact Assoc.length_filter_key_le (Assoc.nodup_keys (Assoc.sorted_ofList members)) name
  unfold fields
  simp only [Readable.node, ofMembers]
  rw [if_pos hall]

theorem get?_named {members : Members} (h : (members.map Prod.fst).Nodup) (name : String) :
    (Fields.named (Assoc.ofList members)).get? name = Assoc.get? name members := by
  rw [Fields.get?, Assoc.lookup_eq_get?, Assoc.get?_ofList h]

theorem list_value (rows : List Json) : list (value maxDepth) (Json.array rows) = some rows := by
  show rows.mapM (fun row => some row) = some rows
  induction rows with
  | nil => rfl
  | cons row rows ih =>
      rw [List.mapM_cons, ih]
      rfl

theorem uint64_ofUInt64 (n : UInt64) : uint64 (ofUInt64 n) = some n := by
  have hn := n.toNat_lt
  have hbound : (0 : Int) ≤ n.toNat ∧ (n.toNat : Int) < (2 ^ (64 : Nat) : Nat) := by omega
  unfold uint64 natBelow
  simp only [Readable.node, ofUInt64]
  rw [if_pos hbound]
  simp

end Json.Read

namespace Batch

open Json Json.Read

theorem readExtra_empty : readExtra (ofMembers [("stats", ofMembers [])]) = some none := rfl

theorem readExtra_fullCount (n : UInt64) :
    readExtra (ofMembers [("stats", ofMembers [("fullCount", ofUInt64 n)])]) = some (some n) := by
  have hcount : (Fields.named (Assoc.ofList [("fullCount", ofUInt64 n)])).get? "fullCount" =
      some (ofUInt64 n) := get?_named (by simp) _
  have hnullable : nullable uint64 (ofUInt64 n) = some (some n) := by
    show (uint64 (ofUInt64 n)).map some = _
    rw [uint64_ofUInt64]
    rfl
  have hread : readStats (ofMembers [("fullCount", ofUInt64 n)]) = some (some n) := by
    unfold readStats
    rw [fields_ofMembers, Option.bind_eq_bind, Option.bind_some]
    unfold Fields.optional
    rw [hcount]
    exact hnullable
  have hstats : (Fields.named (Assoc.ofList
      [("stats", ofMembers [("fullCount", ofUInt64 n)])])).get? "stats" =
        some (ofMembers [("fullCount", ofUInt64 n)]) := get?_named (by simp) _
  unfold readExtra
  rw [fields_ofMembers, Option.bind_eq_bind, Option.bind_some]
  unfold Fields.withDefault
  rw [hstats]
  exact hread

/-- A batch is made of what stands under the names of its parts. -/
theorem read_of_parts {members : Members} (h : (members.map Prod.fst).Nodup)
    {rows : List Json} {hasMore : Bool} {id? : Option String} {count? fullCount? : Option UInt64}
    (hrows : Assoc.get? "result" members = some (.array rows))
    (hmore : Assoc.get? "hasMore" members = some (.bool hasMore))
    (hid : Assoc.get? "id" members = id?.map .string)
    (hcount : Assoc.get? "count" members = count?.map ofUInt64)
    (hextra : (match Assoc.get? "extra" members with
      | some extra => readExtra extra
      | none => some none) = some fullCount?) :
    read (ofMembers members) = some ⟨rows, hasMore, id?, count?, fullCount?⟩ := by
  let parts : Fields Json := .named (Assoc.ofList members)
  have hpart (name : String) : parts.get? name = Assoc.get? name members := get?_named h name
  have hreadRows : parts.withDefault "result" [] (list (value maxDepth)) = some rows := by
    rw [Fields.withDefault, hpart, hrows]
    exact list_value rows
  have hreadMore : parts.withDefault "hasMore" false Read.bool = some hasMore := by
    rw [Fields.withDefault, hpart, hmore]
    rfl
  have hreadId : parts.withDefault "id" none (nullable Read.string) = some id? := by
    rw [Fields.withDefault, hpart, hid]
    cases id? <;> rfl
  have hreadCount : parts.withDefault "count" none (nullable uint64) = some count? := by
    rw [Fields.withDefault, hpart, hcount]
    cases count? with
    | none => rfl
    | some n =>
        show (uint64 (ofUInt64 n)).map some = some (some n)
        rw [uint64_ofUInt64]
        rfl
  have hreadExtra : parts.withDefault "extra" none readExtra = some fullCount? := by
    rw [Fields.withDefault, hpart, ← hextra]
    cases Assoc.get? "extra" members <;> rfl
  unfold read
  rw [fields_ofMembers]
  simp only [Option.bind_eq_bind, Option.bind_some, hreadRows, hreadMore, hreadId, hreadCount,
    hreadExtra, parts]
  rfl

theorem read_ofMembers {members : Members} (h : (members.map Prod.fst).Nodup)
    {rows : List Json} {hasMore : Bool} {id? : Option String} {count? : Option UInt64}
    (hrows : Assoc.get? "result" members = some (.array rows))
    (hmore : Assoc.get? "hasMore" members = some (.bool hasMore))
    (hid : Assoc.get? "id" members = id?.map .string)
    (hcount : Assoc.get? "count" members = count?.map ofUInt64)
    (hextra : ∀ extra ∈ Assoc.get? "extra" members,
      extra = ofMembers [("stats", ofMembers [])]) :
    read (ofMembers members) = some ⟨rows, hasMore, id?, count?, none⟩ := by
  refine read_of_parts h hrows hmore hid hcount ?_
  cases hget : Assoc.get? "extra" members with
  | none => rfl
  | some extra =>
      rw [hextra extra hget]
      exact readExtra_empty

end Batch

theorem Cursor.batchOf_of_read {status : Nat} (hstatus : 200 ≤ status ∧ status < 300) {body : Json}
    {batch : Batch} (h : Batch.read body = some batch) :
    batchOf (.ok ⟨status, body⟩) = .ok batch := by
  have hsuccess : Response.isSuccess ⟨status, body⟩ = true := by
    simp [Response.isSuccess, hstatus]
  simp [batchOf, Response.check, hsuccess, h]

end DocGraph
