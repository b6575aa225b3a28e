/-!
# Key-sorted association lists

The objects of a JSON document and the shelves of the server are lists of pairs in
increasing key order.  This module holds the operations that keep the order and the
view `get?`, through which each of them is described; a sorted list is determined by this view.
-/

namespace DocGraph.Assoc

variable {α : Type}

def get? (key : String) : List (String × α) → Option α
  | [] => none
  | (k, a) :: rest => if k = key then some a else get? key rest

def contains (key : String) (entries : List (String × α)) : Bool :=
  (get? key entries).isSome

def insert (key : String) (value : α) : List (String × α) → List (String × α)
  | [] => [(key, value)]
  | (k, a) :: rest =>
    if key < k then (key, value) :: (k, a) :: rest
    else if k = key then (key, value) :: rest
    else (k, a) :: insert key value rest

def erase (key : String) : List (String × α) → List (String × α)
  | [] => []
  | (k, a) :: rest => if k = key then erase key rest else (k, a) :: erase key rest

/-- Sorts pairs by key; of a repeated key the last value stays. -/
def ofList (entries : List (String × α)) : List (String × α) :=
  entries.foldl (fun sorted entry => insert entry.1 entry.2 sorted) []

def Sorted (entries : List (String × α)) : Prop :=
  entries.Pairwise fun a b => a.1 < b.1

theorem sorted_nil : Sorted ([] : List (String × α)) := List.Pairwise.nil

theorem mem_insert {key : String} {value : α} {entries : List (String × α)}
    {entry : String × α} (h : entry ∈ insert key value entries) :
    entry = (key, value) ∨ entry ∈ entries := by
  induction entries with
  | nil => simpa [insert] using h
  | cons head rest ih =>
    obtain ⟨k, a⟩ := head
    simp only [insert] at h
    split at h
    · simpa using h
    · split at h
      · simp only [List.mem_cons] at h ⊢
        rcases h with h | h
        · exact .inl h
        · exact .inr (.inr h)
      · simp only [List.mem_cons] at h ⊢
        rcases h with h | h
        · exact .inr (.inl h)
        · rcases ih h with h | h
          · exact .inl h
          · exact .inr (.inr h)

theorem sorted_insert {key : String} {value : α} {entries : List (String × α)}
    (h : Sorted entries) : Sorted (insert key value entries) := by
  induction entries with
  | nil => simp [insert, Sorted]
  | cons head rest ih =>
    obtain ⟨k, a⟩ := head
    obtain ⟨hhead, hrest⟩ := List.pairwise_cons.1 h
    simp only [insert]
    split
    · rename_i hlt
      refine List.pairwise_cons.2 ⟨fun entry hentry => ?_, h⟩
      rcases List.mem_cons.1 hentry with rfl | hmem
      · exact hlt
      · exact String.lt_trans hlt (hhead entry hmem)
    · rename_i hnlt
      split
      · rename_i heq
        subst heq
        exact List.pairwise_cons.2 ⟨hhead, hrest⟩
      · rename_i hne
        have hlt : k < key :=
          Std.lt_of_le_of_ne (String.not_lt.1 hnlt) hne
        refine List.pairwise_cons.2 ⟨fun entry hentry => ?_, ih hrest⟩
        rcases mem_insert hentry with rfl | hmem
        · exact hlt
        · exact hhead entry hmem

theorem mem_of_mem_erase {key : String} {entries : List (String × α)}
    {entry : String × α} (h : entry ∈ erase key entries) : entry ∈ entries := by
  induction entries with
  | nil => exact h
  | cons head rest ih =>
    simp only [erase] at h
    split at h
    · exact List.mem_cons_of_mem _ (ih h)
    · rcases List.mem_cons.1 h with rfl | hmem
      · exact List.mem_cons_self
      · exact List.mem_cons_of_mem _ (ih hmem)

theorem sorted_erase {key : String} {entries : List (String × α)}
    (h : Sorted entries) : Sorted (erase key entries) := by
  induction entries with
  | nil => exact h
  | cons head rest ih =>
    obtain ⟨hhead, hrest⟩ := List.pairwise_cons.1 h
    simp only [erase]
    split
    · exact ih hrest
    · exact List.pairwise_cons.2
        ⟨fun entry hmem => hhead entry (mem_of_mem_erase hmem), ih hrest⟩

theorem sorted_ofList (entries : List (String × α)) : Sorted (ofList entries) := by
  have step : ∀ (xs sorted : List (String × α)), Sorted sorted →
      Sorted (xs.foldl (fun s e => insert e.1 e.2 s) sorted) := by
    intro xs
    induction xs with
    | nil => exact fun _ h => h
    | cons _ _ ih => exact fun _ h => ih _ (sorted_insert h)
  exact step entries [] sorted_nil

theorem get?_insert_self (key : String) (value : α) (entries : List (String × α)) :
    get? key (insert key value entries) = some value := by
  induction entries with
  | nil => simp [insert, get?]
  | cons head rest ih =>
    obtain ⟨k, a⟩ := head
    simp only [insert]
    split
    · simp [get?]
    · split
      · simp [get?]
      · rename_i hne
        simp [get?, hne, ih]

theorem get?_insert_of_ne {key other : String} (h : key ≠ other) (value : α)
    (entries : List (String × α)) :
    get? other (insert key value entries) = get? other entries := by
  induction entries with
  | nil => simp [insert, get?, h]
  | cons head rest ih =>
    obtain ⟨k, a⟩ := head
    simp only [insert]
    split
    · simp [get?, h]
    · split
      · rename_i heq
        subst heq
        simp [get?, h]
      · simp [get?, ih]

theorem get?_erase_self (key : String) (entries : List (String × α)) :
    get? key (erase key entries) = none := by
  induction entries with
  | nil => rfl
  | cons head rest ih =>
    simp only [erase]
    split
    · exact ih
    · rename_i hne
      simp [get?, hne, ih]

theorem get?_erase_of_ne {key other : String} (h : key ≠ other)
    (entries : List (String × α)) :
    get? other (erase key entries) = get? other entries := by
  induction entries with
  | nil => rfl
  | cons head rest ih =>
    simp only [erase]
    split
    · rename_i heq
      simp [get?, heq, h, ih]
    · simp [get?, ih]

theorem get?_insert (key other : String) (value : α) (entries : List (String × α)) :
    get? other (insert key value entries) =
      if key = other then some value else get? other entries := by
  split
  · rename_i h
    exact h ▸ get?_insert_self key value entries
  · rename_i h
    exact get?_insert_of_ne h value entries

theorem get?_erase (key other : String) (entries : List (String × α)) :
    get? other (erase key entries) = if key = other then none else get? other entries := by
  split
  · rename_i h
    exact h ▸ get?_erase_self key entries
  · rename_i h
    exact get?_erase_of_ne h entries

theorem get?_eq_none_of_lt {key : String} {entries : List (String × α)}
    (h : ∀ entry ∈ entries, key < entry.1) : get? key entries = none := by
  induction entries with
  | nil => rfl
  | cons head rest ih =>
    have hne : head.1 ≠ key := fun heq =>
      String.lt_irrefl key (heq ▸ h head List.mem_cons_self)
    simp [get?, hne, ih fun entry hmem => h entry (List.mem_cons_of_mem _ hmem)]

theorem mem_of_get?_eq_some {key : String} {value : α} {entries : List (String × α)}
    (h : get? key entries = some value) : (key, value) ∈ entries := by
  induction entries with
  | nil => simp [get?] at h
  | cons head rest ih =>
    obtain ⟨k, a⟩ := head
    simp only [get?] at h
    split at h
    · rename_i heq
      simp_all
    · exact List.mem_cons_of_mem _ (ih h)

theorem eq_of_get?_eq {left right : List (String × α)} (hleft : Sorted left)
    (hright : Sorted right) (h : ∀ key, get? key left = get? key right) : left = right := by
  induction left generalizing right with
  | nil =>
    cases right with
    | nil => rfl
    | cons head rest => simpa [get?] using h head.1
  | cons head rest ih =>
    obtain ⟨k, a⟩ := head
    cases right with
    | nil => simpa [get?] using h k
    | cons other others =>
      obtain ⟨l, b⟩ := other
      obtain ⟨hk, hrest⟩ := List.pairwise_cons.1 hleft
      obtain ⟨hl, hothers⟩ := List.pairwise_cons.1 hright
      have absent : ∀ {x y : String} {c : α} {tail : List (String × α)}, x < y →
          (∀ entry ∈ tail, y < entry.1) → get? x ((y, c) :: tail) = none := by
        intro x y c tail hxy htail
        refine get?_eq_none_of_lt fun entry hmem => ?_
        rcases List.mem_cons.1 hmem with rfl | hmem
        · exact hxy
        · exact String.lt_trans hxy (htail entry hmem)
      have hkl : k = l := by
        refine String.le_antisymm (String.not_lt.1 fun hlt => ?_)
          (String.not_lt.1 fun hlt => ?_)
        · have hl' := h l
          rw [absent hlt hk] at hl'
          simp [get?] at hl'
        · have hk' := h k
          rw [absent hlt hl] at hk'
          simp [get?] at hk'
      subst hkl
      have hab : a = b := by simpa [get?] using h k
      subst hab
      refine congrArg _ (ih hrest hothers fun key => ?_)
      by_cases heq : k = key
      · subst heq
        rw [get?_eq_none_of_lt hk, get?_eq_none_of_lt hl]
      · simpa [get?, heq] using h key

end DocGraph.Assoc
