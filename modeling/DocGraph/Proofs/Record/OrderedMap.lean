import DocGraph.Proofs.Record.Columns
import DocGraph.Proofs.Record.Shape
import Mathlib.Data.List.Induction
/-!
# Records are ordered maps

A record that was started or loaded, and then changed by any calls, is an ordered map: its columns
have an entry for each declared field, no name occurs twice, and what is read by name is what is
listed.  The other fields stand in the order in which they were added.  A call changes one name
only, and none when it fails.
-/

namespace DocGraph

/-! ## Sequences of calls -/

inductive Record.Change where
  | set (name : String) (value : Value)
  | remove (name : String)

def Record.Change.edit : Change → Columns.Edit Unit
  | set name value => Columns.Edit.set name value
  | remove name => do
    let _ ← Columns.Edit.remove name

def Columns.afterAll (columns : Columns) (changes : List Record.Change) : Columns :=
  changes.foldl (fun columns change => (change.edit.perform columns).2) columns

namespace Record

/-- The record after a call, which leaves it as it was when it fails. -/
def after (record : Record) : Change → Record
  | .set name value =>
    match record.set name value with
    | .ok after => after
    | .error _ => record
  | .remove name =>
    match record.remove name with
    | .ok (_, after) => after
    | .error _ => record

def afterAll (record : Record) (changes : List Change) : Record := changes.foldl after record

theorem afterAll_concat (record : Record) (changes : List Change) (change : Change) :
    record.afterAll (changes ++ [change]) = (record.afterAll changes).after change :=
  List.foldl_concat ..

theorem columns_after (record : Record) (change : Change) :
    (change.edit.perform record.columns).2 = (record.after change).columns := by
  cases change with
  | set name value =>
      rw [Change.edit, Columns.Edit.perform_set, after]
      cases record.set name value <;> rfl
  | remove name =>
      rw [Change.edit, Columns.Edit.perform_bind, Columns.Edit.perform_remove, after]
      rcases record.remove name with _ | ⟨_, _⟩ <;> rfl

theorem columns_afterAll (record : Record) (changes : List Change) :
    record.columns.afterAll changes = (record.afterAll changes).columns := by
  induction changes generalizing record with
  | nil => rfl
  | cons change changes ih =>
      rw [Columns.afterAll, List.foldl_cons, columns_after]
      exact ih (record.after change)

/-- A call succeeds, and is a change of the record, or changes nothing. -/
theorem after_cases (record : Record) (change : Change) :
    (∃ name value, record.set name value = .ok (record.after change)) ∨
    (∃ name previous, record.remove name = .ok (previous, record.after change)) ∨
    record.after change = record := by
  cases change with
  | set name value =>
      simp only [after]
      split
      · exact .inl ⟨name, value, ‹_›⟩
      · exact .inr (.inr rfl)
  | remove name =>
      simp only [after]
      split
      · exact .inr (.inl ⟨name, _, ‹_›⟩)
      · exact .inr (.inr rfl)

theorem schema_after (record : Record) (change : Change) :
    (record.after change).schema = record.schema := by
  obtain ⟨_, _, h⟩ | ⟨_, _, h⟩ | h := record.after_cases change
  · exact schema_of_set h
  · exact schema_of_remove h
  · rw [h]

theorem schema_afterAll (record : Record) (changes : List Change) :
    (record.afterAll changes).schema = record.schema := by
  induction changes generalizing record with
  | nil => rfl
  | cons change changes ih => exact (ih (record.after change)).trans (record.schema_after change)

theorem IsShaped.after {record : Record} (h : record.IsShaped) (change : Change) :
    (record.after change).IsShaped := by
  obtain ⟨_, _, hset⟩ | ⟨_, _, hremove⟩ | hsame := record.after_cases change
  · exact h.set hset
  · exact h.remove hremove
  · rwa [hsame]

theorem IsShaped.afterAll {record : Record} (h : record.IsShaped) (changes : List Change) :
    (record.afterAll changes).IsShaped := by
  induction changes generalizing record with
  | nil => exact h
  | cons change changes ih => exact ih (h.after change)

/-! ## The order of the other fields -/

/-- The call of this number added a field, which was there after every later one.  What was there
at the beginning has the number 0. -/
structure AddedAt (first : Record) (changes : List Change) (name : String) (count : Nat) : Prop
    where
  le_length : count ≤ changes.length
  stays : ∀ later, count ≤ later → (first.afterAll (changes.take later)).contains name = true
  missing : ∀ before, before + 1 = count →
    (first.afterAll (changes.take before)).contains name = false

/-- One field was added before another; what was there at the beginning is in the order of the
names. -/
def AddedBefore (first : Record) (changes : List Change) (name other : String) : Prop :=
  ∃ count later, AddedAt first changes name count ∧ AddedAt first changes other later ∧
    (count < later ∨ count = 0 ∧ later = 0 ∧ name < other)

theorem extras_after (record : Record) (change : Change) :
    ∃ kept added, (record.after change).extras.map Prod.fst = kept ++ added ∧
      kept.Sublist (record.extras.map Prod.fst) ∧
      (added = [] ∨ ∃ name, added = [name] ∧ name ∉ record.extras.map Prod.fst) := by
  obtain ⟨name, value, h⟩ | ⟨name, _, h⟩ | h := record.after_cases change
  · obtain ⟨_, _, _, _, _, _, h⟩ | ⟨_, _, _, h⟩ := set_cases h
    · exact ⟨_, [], by rw [h, List.append_nil], .refl _, .inl rfl⟩
    · rw [h, map_fst_putExtra]
      split
      · exact ⟨_, [], (List.append_nil _).symm, .refl _, .inl rfl⟩
      · exact ⟨_, [name], rfl, .refl _, .inr ⟨name, rfl, ‹_›⟩⟩
  · obtain ⟨_, _, _, h⟩ | ⟨_, _, _, h⟩ := remove_cases h
    · exact ⟨_, [], by rw [h, List.append_nil], .refl _, .inl rfl⟩
    · refine ⟨_, [], by rw [h, List.append_nil], ?_, .inl rfl⟩
      exact (dropExtra_sublist name record.extras).map Prod.fst
  · exact ⟨_, [], by rw [h, List.append_nil], .refl _, .inl rfl⟩

section Order

variable {first : Record} {changes : List Change} {change : Change} {name : String}

/-- What was added stays added as long as it is there. -/
theorem AddedAt.concat {count : Nat} (h : AddedAt first changes name count)
    (hcontains : (first.afterAll (changes ++ [change])).contains name = true) :
    AddedAt first (changes ++ [change]) name count where
  le_length := by
    have := h.le_length
    simp only [List.length_append, List.length_singleton]
    omega
  stays later hlater := by
    by_cases hle : later ≤ changes.length
    · rw [List.take_append_of_le_length hle]
      exact h.stays later hlater
    · rw [List.take_of_length_le (by simp; omega)]
      exact hcontains
  missing before hbefore := by
    rw [List.take_append_of_le_length (by have := h.le_length; omega)]
    exact h.missing before hbefore

theorem addedAt_last (hmissing : (first.afterAll changes).contains name = false)
    (hcontains : (first.afterAll (changes ++ [change])).contains name = true) :
    AddedAt first (changes ++ [change]) name (changes.length + 1) where
  le_length := by simp
  stays later hlater := by
    rw [List.take_of_length_le (by simpa using hlater)]
    exact hcontains
  missing before hbefore := by
    obtain rfl := Nat.succ.inj hbefore
    rwa [List.take_left']
    rfl

theorem exists_addedAt (hcontains : (first.afterAll changes).contains name = true) :
    ∃ count, AddedAt first changes name count := by
  induction changes using List.reverseRecOn with
  | nil => exact ⟨0, Nat.le_refl 0, fun _ _ => by simpa using hcontains, by simp⟩
  | append_singleton changes change ih =>
      cases hbefore : (first.afterAll changes).contains name with
      | true =>
          obtain ⟨count, hadded⟩ := ih hbefore
          exact ⟨count, hadded.concat hcontains⟩
      | false => exact ⟨_, addedAt_last hbefore hcontains⟩

theorem IsShaped.contains_iff_of_undeclared {record : Record} (h : record.IsShaped)
    (hposition : record.schema.position? name = none) :
    record.contains name = true ↔ name ∈ record.extras.map Prod.fst := by
  have hundeclared := Schema.position?_eq_none_iff.1 hposition
  rw [h.contains_iff, h.keys_eq, List.mem_append, List.mem_filter]
  simp [hundeclared]

/-- The other fields stand in the order in which they were added. -/
theorem pairwise_addedBefore [CustomCodecs] {declaration schema : Schema}
    (hbuilt : declaration.build = .ok schema) (hfirst : first.Begun schema) :
    ((first.afterAll changes).extras.map Prod.fst).Pairwise (AddedBefore first changes) := by
  have hshaped := (hfirst.isShaped hbuilt).afterAll
  have hcontains : ∀ {changes name}, name ∈ (first.afterAll changes).extras.map Prod.fst →
      (first.afterAll changes).contains name = true := fun hmem =>
    ((hshaped _).contains_iff_of_undeclared ((hshaped _).undeclared _ hmem).1).2 hmem
  -- What the last call keeps was in order before it, and what it adds is later than all of that.
  induction changes using List.reverseRecOn with
  | nil =>
      refine hfirst.sorted_extras.imp_of_mem fun hname hother hlt => ?_
      have hstart : ∀ {name}, name ∈ first.extras.map Prod.fst → AddedAt first [] name 0 :=
        fun hmem => ⟨Nat.le_refl 0, fun _ _ => by simpa using hcontains hmem, by simp⟩
      exact ⟨0, 0, hstart hname, hstart hother, .inr ⟨rfl, rfl, hlt⟩⟩
  | append_singleton changes change ih =>
      obtain ⟨kept, added, hextras, hkept, hadded⟩ := extras_after (first.afterAll changes) change
      rw [← afterAll_concat] at hextras
      have hthere : ∀ name ∈ kept ++ added,
          (first.afterAll (changes ++ [change])).contains name = true :=
        fun name hmem => hcontains (hextras ▸ hmem)
      rw [hextras, List.pairwise_append]
      refine ⟨(ih.sublist hkept).imp_of_mem ?_, ?_, ?_⟩
      · rintro name other hname hother ⟨count, later, hcount, hlater, horder⟩
        exact ⟨count, later, hcount.concat (hthere name (List.mem_append_left _ hname)),
          hlater.concat (hthere other (List.mem_append_left _ hother)), horder⟩
      · obtain rfl | ⟨name, rfl, _⟩ := hadded
        · exact .nil
        · exact List.pairwise_singleton _ _
      · intro name hname other hother
        obtain rfl | ⟨_, rfl, hnew⟩ := hadded
        · simp at hother
        obtain rfl := List.mem_singleton.1 hother
        obtain ⟨count, hcount⟩ := exists_addedAt (hcontains (hkept.subset hname))
        have hmissing : (first.afterAll changes).contains other = false := by
          have hundeclared := ((hshaped (changes ++ [change])).undeclared other
            (hextras ▸ List.mem_append_right _ hother)).1
          rw [schema_afterAll, ← first.schema_afterAll changes] at hundeclared
          exact Bool.eq_false_iff.2 fun hthere =>
            hnew (((hshaped _).contains_iff_of_undeclared hundeclared).1 hthere)
        exact ⟨count, changes.length + 1,
          hcount.concat (hthere name (List.mem_append_left _ hname)),
          addedAt_last hmissing (hthere other (List.mem_append_right _ hother)),
          .inl (Nat.lt_succ_of_le hcount.le_length)⟩

end Order

/-! ## Ordered maps -/

/-- A record with an entry in its columns for each field, which lists every name once: the fields
that are present, then the others.  What is listed is what is read by name. -/
structure IsOrderedMap (record : Record) : Prop where
  length_values : record.columns.values.length = record.schema.fields.length
  length_defaulted : record.columns.defaulted.length = record.schema.fields.length
  position_lt : ∀ name position, record.schema.position? name = some position →
    position < record.schema.fields.length
  keys_eq : record.keys = (record.schema.fields.map FieldSpec.name).filter record.contains ++
    record.extras.map Prod.fst
  nodup_keys : record.keys.Nodup
  get?_eq_some_iff : ∀ name value,
    record.get? name = .ok (some value) ↔ (name, value) ∈ record.entries
  contains_iff : ∀ name, record.contains name = true ↔ name ∈ record.keys
  size_eq : record.size = record.keys.length

/-- Putting a value into a field in place changes this field only, and nothing when it fails. -/
def SetsOneField (record : Record) (name : String) (value : Value) : Prop :=
  match record.set name value with
  | .ok after =>
    (Columns.Edit.set name value).perform record.columns = (.ok (), after.columns) ∧
      after.get? name = .ok (some (record.schema.widen name value)) ∧
      ∀ other, other ≠ name → after.get? other = record.get? other
  | .error error =>
    (Columns.Edit.set name value).perform record.columns = (.error error, record.columns)

/-- Removing a field in place gives back what it held and changes this field only, and nothing when
it fails. -/
def RemovesOneField (record : Record) (name : String) : Prop :=
  match record.remove name with
  | .ok (previous, after) =>
    (Columns.Edit.remove name).perform record.columns = (.ok previous, after.columns) ∧
      record.get? name = .ok previous ∧ after.get? name = .ok none ∧
      ∀ other, other ≠ name → after.get? other = record.get? other
  | .error error =>
    (Columns.Edit.remove name).perform record.columns = (.error error, record.columns)

section

variable {record : Record} (h : record.IsShaped)
include h

theorem IsShaped.isOrderedMap : record.IsOrderedMap where
  length_values := record.length_values.trans h.length_slots
  length_defaulted := record.length_defaulted.trans h.length_slots
  position_lt _ _ hposition := h.length_slots ▸ h.lt_length hposition
  keys_eq := h.keys_eq
  nodup_keys := h.nodup_keys
  get?_eq_some_iff _ _ := h.get?_eq_some_iff
  contains_iff _ := h.contains_iff
  size_eq := (List.length_map ..).symm

theorem IsShaped.setsOneField (name : String) (value : Value) :
    record.SetsOneField name value := by
  unfold SetsOneField
  rw [Columns.Edit.perform_set]
  cases hset : record.set name value with
  | ok after => exact ⟨rfl, h.get?_of_set hset⟩
  | error error => rfl

theorem IsShaped.removesOneField (name : String) : record.RemovesOneField name := by
  unfold RemovesOneField
  rw [Columns.Edit.perform_remove]
  cases hremove : record.remove name with
  | ok removed => exact ⟨rfl, h.get?_of_remove hremove⟩
  | error error => rfl

end

/-- A record that was started or loaded, and then changed in place by any calls, is an ordered map,
lists the fields that were added in the order in which they came, and is changed by one more call
in one field at most. -/
theorem ordered_map [CustomCodecs] {declaration schema : Schema}
    (hbuilt : declaration.build = .ok schema) {first : Record}
    (hfirst : first.Begun schema) (changes : List Change) :
    first.columns.afterAll changes = (first.afterAll changes).columns ∧
      (first.afterAll changes).schema = schema ∧
      (first.afterAll changes).IsOrderedMap ∧
      ((first.afterAll changes).extras.map Prod.fst).Pairwise (AddedBefore first changes) ∧
      (∀ name value, (first.afterAll changes).SetsOneField name value) ∧
      ∀ name, (first.afterAll changes).RemovesOneField name := by
  have hshaped := (hfirst.isShaped hbuilt).afterAll changes
  exact ⟨columns_afterAll first changes, (schema_afterAll first changes).trans hfirst.schema_eq,
    hshaped.isOrderedMap, pairwise_addedBefore hbuilt hfirst, hshaped.setsOneField,
    hshaped.removesOneField⟩

def boatSchema : Schema :=
  ⟨"boats", .document, [⟨"name", .string, true, none, false, none⟩,
    ⟨"loads", .listOf (.primitive .float), false, none, false, none⟩], true, []⟩

/-- The flag is there first, but is taken down and raised again after the port was said. -/
def boatChanges : List Change :=
  [.set "flag" (.string "red"), .set "loads" (.list [.int 1, .null]),
    .set "port" (.string "Bergen"), .remove "flag", .set "name" (.int 7),
    .set "flag" (.string "blue")]

section

attribute [local instance] CustomCodecs.none

theorem ordered_map_boats :
    let boat := Record.new boatSchema .declared
    boatSchema.build = .ok boatSchema ∧ boat.Begun boatSchema ∧
      (boat.afterAll boatChanges).keys = ["loads", "port", "flag"] ∧
      AddedBefore boat boatChanges "port" "flag" ∧
      (boat.afterAll boatChanges).get? "loads" =
        .ok (some (.list [.float (Binary64.ofInt 1), .null])) := by
  intro boat
  have hbuilt : boatSchema.build = .ok boatSchema := by rfl
  have hbegun : boat.Begun boatSchema := .new _
  obtain ⟨_, _, _, horder, _⟩ := ordered_map hbuilt hbegun boatChanges
  have hextras : (boat.afterAll boatChanges).extras.map Prod.fst = ["port", "flag"] := by
    decide +kernel
  rw [hextras, List.pairwise_pair] at horder
  exact ⟨hbuilt, hbegun, by decide +kernel, horder, by rfl⟩

end

end Record

end DocGraph
