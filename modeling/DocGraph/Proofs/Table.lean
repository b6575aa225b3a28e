import DocGraph.Proofs.Assoc
import DocGraph.Table
/-!
# Changes of a table

An entry is set to a value or to nothing, or changed where it stands.  Changes of different entries
can be made in either order.
-/

namespace DocGraph.Table

variable {α : Type}

theorem mem_values_iff {table : Table α} {value : α} :
    value ∈ table.values ↔ ∃ key, table.get? key = some value := by
  simp only [values, List.mem_map, Prod.exists, exists_eq_right]
  refine exists_congr fun key => ?_
  exact ⟨Assoc.get?_eq_some_of_mem (Assoc.nodup_keys table.sorted), Assoc.mem_of_get?_eq_some⟩

def set (table : Table α) (key : String) : Option α → Table α
  | some value => table.insert key value
  | none => table.erase key

theorem get?_set (table : Table α) (key other : String) (value? : Option α) :
    (table.set key value?).get? other = if key = other then value? else table.get? other := by
  cases value? with
  | some value => exact get?_insert ..
  | none => exact get?_erase ..

theorem set_eq_self (table : Table α) (key : String) :
    table.set key (table.get? key) = table := by
  refine ext_get? fun other => ?_
  rw [get?_set]
  split
  · rename_i heq
    rw [heq]
  · rfl

theorem set_comm (table : Table α) {key other : String} (h : key ≠ other)
    (value? other? : Option α) :
    (table.set key value?).set other other? = (table.set other other?).set key value? := by
  refine ext_get? fun k => ?_
  simp only [get?_set]
  by_cases hother : other = k
  · rw [if_pos hother, if_neg (hother ▸ h), if_pos hother]
  · rw [if_neg hother, if_neg hother]

theorem get?_foldl_erase (table : Table α) (names : List String) (key : String) :
    (names.foldl erase table).get? key = if key ∈ names then none else table.get? key := by
  induction names generalizing table with
  | nil => simp
  | cons name names ih =>
      rw [List.foldl_cons, ih, get?_erase]
      by_cases hname : name = key
      · simp [hname]
      · simp [hname, Ne.symm hname]

theorem modify_of_some {table : Table α} {key : String} {value : α}
    (h : table.get? key = some value) (change : α → α) :
    table.modify key change = table.insert key (change value) := by
  simp only [modify, h]

theorem modify_of_none {table : Table α} {key : String} (h : table.get? key = none)
    (change : α → α) : table.modify key change = table := by
  simp only [modify, h]

theorem get?_modify (table : Table α) (key other : String) (change : α → α) :
    (table.modify key change).get? other =
      if key = other then (table.get? other).map change else table.get? other := by
  cases hvalue : table.get? key with
  | some value =>
      rw [modify_of_some hvalue, get?_insert]
      split
      · rename_i heq
        rw [← heq, hvalue, Option.map_some]
      · rfl
  | none =>
      rw [modify_of_none hvalue]
      split
      · rename_i heq
        rw [← heq, hvalue, Option.map_none]
      · rfl

theorem modify_eq_self {table : Table α} {key : String} {change : α → α}
    (h : ∀ value, table.get? key = some value → change value = value) :
    table.modify key change = table := by
  cases hvalue : table.get? key with
  | some value => rw [modify_of_some hvalue, h value hvalue, insert_eq_self hvalue]
  | none => exact modify_of_none hvalue change

theorem modify_comm (table : Table α) {key other : String} {first second : α → α}
    (h : key = other → ∀ value, second (first value) = first (second value)) :
    (table.modify key first).modify other second =
      (table.modify other second).modify key first := by
  refine ext_get? fun k => ?_
  simp only [get?_modify]
  by_cases hkey : key = k <;> by_cases hother : other = k
  · have hsame := h (hkey.trans hother.symm)
    simp [hkey, hother, Function.comp_def, hsame]
  all_goals simp [hkey, hother]

end DocGraph.Table
