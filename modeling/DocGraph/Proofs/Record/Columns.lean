import DocGraph.Proofs.Outcome
import DocGraph.Record.Columns
/-!
# Edits in place

A call that works on the columns of a record in place leaves behind the columns of the record that
it makes, or those of the record it was called on when it fails.
-/

namespace DocGraph

/-! ## Slots in columns -/

@[simp] theorem Record.schema_columns (record : Record) :
    record.columns.schema = record.schema := rfl

@[simp] theorem Record.extras_columns (record : Record) :
    record.columns.extras = record.extras := rfl

@[simp] theorem Record.length_values (record : Record) :
    record.columns.values.length = record.slots.length := List.length_map ..

@[simp] theorem Record.length_defaulted (record : Record) :
    record.columns.defaulted.length = record.slots.length := List.length_map ..

theorem Record.getElem?_values (record : Record) (position : Nat) :
    record.columns.values[position]?.join = record.slotValue? position := by
  rw [Record.columns, List.getElem?_map, Record.slotValue?]
  cases record.slots[position]? <;> rfl

theorem Record.columns_set (record : Record) (position : Nat) (slot : Slot)
    (h : slot.isDefaulted = false) :
    { record with slots := record.slots.set position slot }.columns =
      { record.columns with
        values := record.columns.values.set position slot.value?
        defaulted := record.columns.defaulted.set position false } := by
  simp only [Record.columns, List.map_set, h]

namespace Columns.Edit

variable {α β : Type}

theorem perform_bind (first : Edit α) (next : α → Edit β) (columns : Columns) :
    perform (first >>= next) columns =
      match perform first columns with
      | (.ok a, columns) => perform (next a) columns
      | (.error error, columns) => (.error error, columns) := by
  show (match perform first columns with
    | (result, columns) => (ExceptT.bindCont next result : StateM Columns _) columns) = _
  rcases perform first columns with ⟨result, after⟩
  cases result <;> rfl

theorem perform_get_bind (next : Columns → Edit β) (columns : Columns) :
    perform (MonadState.get >>= next) columns = perform (next columns) columns := rfl

theorem perform_lift_bind (result : Except Error α) (next : α → Edit β) (columns : Columns) :
    perform (liftM result >>= next) columns =
      match result with
      | .ok a => perform (next a) columns
      | .error error => (.error error, columns) := by
  cases result <;> rfl

theorem perform_unknown (name : String) (record : Record) :
    perform (unknown name : Edit α) record.columns = (record.unknown name, record.columns) := rfl

/-! ## Calls in place -/

theorem perform_set (name : String) (value : Value) (record : Record) :
    perform (set name value) record.columns =
      match record.set name value with
      | .ok after => (.ok (), after.columns)
      | .error error => (.error error, record.columns) := by
  unfold set Record.set
  rw [perform_get_bind, Record.schema_columns, Record.extras_columns]
  cases record.schema.position? name with
  | some position =>
      dsimp only
      cases record.schema.fields[position]? with
      | some field =>
          dsimp only
          rw [perform_lift_bind]
          cases field.accept value with
          | ok accepted =>
              exact congrArg (Prod.mk _) (record.columns_set position (.held accepted) rfl).symm
          | error error => rfl
      | none => exact perform_unknown name record
  | none =>
      dsimp only
      by_cases hopen : record.schema.isOpen ∧ name ∉ Schema.reservedAttributes
      · rw [if_pos hopen, if_pos hopen]
        rfl
      · rw [if_neg hopen, if_neg hopen]
        exact perform_unknown name record

theorem perform_remove (name : String) (record : Record) :
    perform (remove name) record.columns =
      match record.remove name with
      | .ok (previous, after) => (.ok previous, after.columns)
      | .error error => (.error error, record.columns) := by
  unfold remove Record.remove
  rw [perform_get_bind, Record.schema_columns, Record.extras_columns]
  cases record.schema.position? name with
  | some position =>
      dsimp only
      rw [← record.getElem?_values position]
      exact congrArg (Prod.mk _) (record.columns_set position .absent rfl).symm
  | none =>
      dsimp only
      by_cases hopen : record.schema.isOpen
      · rw [if_pos hopen, if_pos hopen]
        rfl
      · rw [if_neg hopen, if_neg hopen]
        exact perform_unknown name record

end Columns.Edit

end DocGraph
