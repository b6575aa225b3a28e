import DocGraph.Assoc
/-!
# Tables

A table is an association list whose keys increase, so two tables that answer every look-up
alike are equal.
-/

namespace DocGraph

/-- Values filed under text keys, in key order. -/
structure Table (α : Type) where
  entries : List (String × α)
  sorted : Assoc.Sorted entries

namespace Table

variable {α : Type}

def empty : Table α := ⟨[], Assoc.sorted_nil⟩

instance : Inhabited (Table α) := ⟨empty⟩

def get? (table : Table α) (key : String) : Option α :=
  Assoc.get? key table.entries

def contains (table : Table α) (key : String) : Bool :=
  (table.get? key).isSome

def insert (table : Table α) (key : String) (value : α) : Table α :=
  ⟨Assoc.insert key value table.entries, Assoc.sorted_insert table.sorted⟩

def erase (table : Table α) (key : String) : Table α :=
  ⟨Assoc.erase key table.entries, Assoc.sorted_erase table.sorted⟩

def modify (table : Table α) (key : String) (change : α → α) : Table α :=
  match table.get? key with
  | some value => table.insert key (change value)
  | none => table

def size (table : Table α) : Nat := table.entries.length

def keys (table : Table α) : List String := table.entries.map (·.1)

def values (table : Table α) : List α := table.entries.map (·.2)

def ofList (entries : List (String × α)) : Table α :=
  ⟨Assoc.ofList entries, Assoc.sorted_ofList entries⟩

@[simp] theorem get?_empty (key : String) : (empty : Table α).get? key = none := rfl

@[simp] theorem get?_insert_self (table : Table α) (key : String) (value : α) :
    (table.insert key value).get? key = some value :=
  Assoc.get?_insert_self key value table.entries

theorem get?_insert_of_ne (table : Table α) {key other : String} (h : key ≠ other)
    (value : α) : (table.insert key value).get? other = table.get? other :=
  Assoc.get?_insert_of_ne h value table.entries

@[simp] theorem get?_erase_self (table : Table α) (key : String) :
    (table.erase key).get? key = none :=
  Assoc.get?_erase_self key table.entries

theorem get?_erase_of_ne (table : Table α) {key other : String} (h : key ≠ other) :
    (table.erase key).get? other = table.get? other :=
  Assoc.get?_erase_of_ne h table.entries

theorem get?_insert (table : Table α) (key other : String) (value : α) :
    (table.insert key value).get? other = if key = other then some value else table.get? other :=
  Assoc.get?_insert key other value table.entries

theorem get?_erase (table : Table α) (key other : String) :
    (table.erase key).get? other = if key = other then none else table.get? other :=
  Assoc.get?_erase key other table.entries

theorem ext_get? {left right : Table α} (h : ∀ key, left.get? key = right.get? key) :
    left = right := by
  obtain ⟨_, hleft⟩ := left
  obtain ⟨_, hright⟩ := right
  simpa using Assoc.eq_of_get?_eq hleft hright h

theorem insert_eq_self {table : Table α} {key : String} {value : α}
    (h : table.get? key = some value) : table.insert key value = table := by
  refine ext_get? fun other => ?_
  rw [get?_insert]
  split
  · rename_i heq
    rw [← heq, h]
  · rfl

theorem erase_eq_self {table : Table α} {key : String} (h : table.get? key = none) :
    table.erase key = table := by
  refine ext_get? fun other => ?_
  rw [get?_erase]
  split
  · rename_i heq
    rw [← heq, h]
  · rfl

theorem erase_insert_self (table : Table α) (key : String) (value : α) :
    (table.insert key value).erase key = table.erase key := by
  refine ext_get? fun other => ?_
  simp only [get?_erase, get?_insert]
  split <;> rfl

end Table

end DocGraph
