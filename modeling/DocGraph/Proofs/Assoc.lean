import DocGraph.Assoc
/-!
# Association lists changed as a whole

Three operations that go through a whole list, each described by what is found under a key
afterwards.  Where keys increase, no entry hides another one.
-/

namespace DocGraph.Assoc

variable {α β : Type}

def filterMap (f : String → α → Option β) (entries : List (String × α)) : List (String × β) :=
  entries.filterMap fun entry => (f entry.1 entry.2).map (entry.1, ·)

def insertAll (news entries : List (String × α)) : List (String × α) :=
  news.foldl (fun entries entry => insert entry.1 entry.2 entries) entries

theorem sorted_iff_keys {entries : List (String × α)} :
    Sorted entries ↔ (entries.map Prod.fst).Pairwise (· < ·) :=
  List.pairwise_map.symm

theorem nodup_keys {entries : List (String × α)} (h : Sorted entries) :
    (entries.map Prod.fst).Nodup := by
  refine (sorted_iff_keys.1 h).imp ?_
  intro key other hlt heq
  exact String.lt_irrefl key (heq ▸ hlt)

theorem lookup_eq_get? (key : String) (entries : List (String × α)) :
    entries.lookup key = get? key entries := by
  induction entries with
  | nil => rfl
  | cons head rest ih =>
      obtain ⟨k, a⟩ := head
      by_cases hk : k = key
      · rw [hk, List.lookup_cons_self, get?, if_pos rfl]
      · have hbeq : (key == k) = false := by simpa using Ne.symm hk
        rw [List.lookup_cons, hbeq, get?, if_neg hk, ih]

theorem get?_eq_none_of_not_mem {key : String} {entries : List (String × α)}
    (h : key ∉ entries.map Prod.fst) : get? key entries = none := by
  induction entries with
  | nil => rfl
  | cons head rest ih =>
      obtain ⟨hhead, hrest⟩ := List.ne_and_not_mem_of_not_mem_cons h
      rw [get?, if_neg (Ne.symm hhead), ih hrest]

theorem get?_eq_some_of_mem {key : String} {value : α} {entries : List (String × α)}
    (h : (entries.map Prod.fst).Nodup) (hmem : (key, value) ∈ entries) :
    get? key entries = some value := by
  induction entries with
  | nil => simp at hmem
  | cons head rest ih =>
      obtain ⟨hhead, hrest⟩ := List.nodup_cons.1 h
      rcases List.mem_cons.1 hmem with rfl | hmem
      · rw [get?, if_pos rfl]
      · have hne : head.1 ≠ key := by
          intro heq
          exact hhead (heq ▸ List.mem_map_of_mem hmem)
        rw [get?, if_neg hne, ih hrest hmem]

theorem contains_erase_of_ne {name key : String} (h : name ≠ key)
    (entries : List (String × α)) : contains key (erase name entries) = contains key entries := by
  unfold contains
  rw [get?_erase_of_ne h]

theorem get?_eq_none_of_head_lt {key : String} {value : α} {rest : List (String × α)}
    (h : Sorted ((key, value) :: rest)) : get? key rest = none :=
  get?_eq_none_of_lt (List.pairwise_cons.1 h).1

theorem mem_of_mem_insertAll {news entries : List (String × α)} {entry : String × α}
    (h : entry ∈ insertAll news entries) : entry ∈ news ∨ entry ∈ entries := by
  induction news generalizing entries with
  | nil => exact Or.inr h
  | cons head news ih =>
      rcases ih h with h | h
      · exact Or.inl (List.mem_cons_of_mem _ h)
      · rcases mem_insert h with h | h
        · exact Or.inl (h ▸ List.mem_cons_self)
        · exact Or.inr h

theorem mem_of_mem_ofList {entries : List (String × α)} {entry : String × α}
    (h : entry ∈ ofList entries) : entry ∈ entries := by
  have hfiled : entry ∈ insertAll entries [] := h
  simpa using mem_of_mem_insertAll hfiled

theorem mem_keys_of_insertAll {news entries : List (String × α)} {key : String}
    (h : key ∈ (insertAll news entries).map Prod.fst) :
    key ∈ news.map Prod.fst ∨ key ∈ entries.map Prod.fst := by
  obtain ⟨entry, hentry, rfl⟩ := List.mem_map.1 h
  exact (mem_of_mem_insertAll hentry).imp List.mem_map_of_mem List.mem_map_of_mem

/-! ## Which keys are filed depends on keys alone -/

theorem map_fst_insert_congr (key : String) (value value' : α) {left right : List (String × α)}
    (h : left.map Prod.fst = right.map Prod.fst) :
    (insert key value left).map Prod.fst = (insert key value' right).map Prod.fst := by
  induction left generalizing right with
  | nil =>
      obtain rfl : right = [] := List.map_eq_nil_iff.1 h.symm
      rfl
  | cons head rest ih =>
      obtain ⟨k, a⟩ := head
      cases right with
      | nil => simp at h
      | cons other others =>
          obtain ⟨l, b⟩ := other
          obtain ⟨rfl, hrest⟩ : k = l ∧ rest.map Prod.fst = others.map Prod.fst := by
            simpa using h
          by_cases hlt : key < k
          · simp [insert, hlt, hrest]
          · by_cases heq : k = key
            · simp [insert, heq, hrest]
            · simp [insert, hlt, heq, ih hrest]

theorem map_fst_ofList_congr {left right : List (String × α)}
    (h : left.map Prod.fst = right.map Prod.fst) :
    (ofList left).map Prod.fst = (ofList right).map Prod.fst := by
  have step : ∀ (news news' sorted sorted' : List (String × α)),
      news.map Prod.fst = news'.map Prod.fst → sorted.map Prod.fst = sorted'.map Prod.fst →
      (insertAll news sorted).map Prod.fst = (insertAll news' sorted').map Prod.fst := by
    intro news
    induction news with
    | nil =>
        intro news' sorted sorted' hnews hsorted
        obtain rfl : news' = [] := List.map_eq_nil_iff.1 hnews.symm
        exact hsorted
    | cons head news ih =>
        intro news' sorted sorted' hnews hsorted
        cases news' with
        | nil => simp at hnews
        | cons head' news' =>
            obtain ⟨hkey, hnews⟩ : head.1 = head'.1 ∧ news.map Prod.fst = news'.map Prod.fst := by
              simpa using hnews
            change (insertAll news (insert head.1 head.2 sorted)).map Prod.fst
              = (insertAll news' (insert head'.1 head'.2 sorted')).map Prod.fst
            rw [hkey]
            exact ih _ _ _ hnews (map_fst_insert_congr _ _ _ hsorted)
  exact step left right [] [] h rfl

/-! ## Changing every entry -/

theorem filterMap_cons_none {f : String → α → Option β} {key : String} {value : α}
    (h : f key value = none) (rest : List (String × α)) :
    filterMap f ((key, value) :: rest) = filterMap f rest := by
  simp [filterMap, h]

theorem filterMap_cons_some {f : String → α → Option β} {key : String} {value : α} {b : β}
    (h : f key value = some b) (rest : List (String × α)) :
    filterMap f ((key, value) :: rest) = (key, b) :: filterMap f rest := by
  simp [filterMap, h]

theorem sorted_filterMap {f : String → α → Option β} {entries : List (String × α)}
    (h : Sorted entries) : Sorted (filterMap f entries) := by
  refine List.Pairwise.filterMap _ (fun a a' hlt b hb b' hb' => ?_) h
  obtain ⟨_, _, rfl⟩ := Option.map_eq_some_iff.1 hb
  obtain ⟨_, _, rfl⟩ := Option.map_eq_some_iff.1 hb'
  exact hlt

theorem get?_filterMap {f : String → α → Option β} {entries : List (String × α)}
    (h : Sorted entries) (key : String) :
    get? key (filterMap f entries) = (get? key entries).bind (f key) := by
  induction entries with
  | nil => rfl
  | cons head rest ih =>
      obtain ⟨k, a⟩ := head
      obtain ⟨hhead, hrest⟩ := List.pairwise_cons.1 h
      cases hf : f k a with
      | none =>
          rw [filterMap_cons_none hf, ih hrest]
          by_cases hk : k = key
          · subst hk
            simp [get?, hf, get?_eq_none_of_head_lt h]
          · simp [get?, hk]
      | some b =>
          rw [filterMap_cons_some hf]
          by_cases hk : k = key
          · subst hk
            simp [get?, hf]
          · simp [get?, hk, ih hrest]

theorem sorted_insertAll {news entries : List (String × α)} (h : Sorted entries) :
    Sorted (insertAll news entries) := by
  induction news generalizing entries with
  | nil => exact h
  | cons head rest ih => exact ih (sorted_insert h)

theorem get?_insertAll {news entries : List (String × α)} (h : (news.map Prod.fst).Nodup)
    (key : String) :
    get? key (insertAll news entries) = (get? key news).or (get? key entries) := by
  induction news generalizing entries with
  | nil => rfl
  | cons head rest ih =>
      obtain ⟨k, a⟩ := head
      obtain ⟨hhead, hrest⟩ := List.nodup_cons.1 h
      change get? key (insertAll rest (insert k a entries)) = _
      rw [ih hrest, get?_insert]
      by_cases hk : k = key
      · subst hk
        simp [get?, get?_eq_none_of_not_mem hhead]
      · simp [get?, hk]

theorem get?_insertAll_of_not_mem {news entries : List (String × α)} {key : String}
    (h : key ∉ news.map Prod.fst) : get? key (insertAll news entries) = get? key entries := by
  induction news generalizing entries with
  | nil => rfl
  | cons head rest ih =>
      obtain ⟨hhead, hrest⟩ := List.ne_and_not_mem_of_not_mem_cons h
      change get? key (insertAll rest (insert head.1 head.2 entries)) = _
      rw [ih hrest, get?_insert_of_ne (Ne.symm hhead)]

theorem get?_insertAll_congr (news : List (String × α)) {left right : List (String × α)}
    {key : String} (h : get? key left = get? key right) :
    get? key (insertAll news left) = get? key (insertAll news right) := by
  induction news generalizing left right with
  | nil => exact h
  | cons head rest ih =>
      refine ih ?_
      rw [get?_insert, get?_insert, h]

theorem get?_ofList {entries : List (String × α)} (h : (entries.map Prod.fst).Nodup)
    (key : String) : get? key (ofList entries) = get? key entries := by
  have hfiled : get? key (insertAll entries []) = (get? key entries).or none :=
    get?_insertAll h key
  rw [Option.or_none] at hfiled
  exact hfiled

end DocGraph.Assoc
