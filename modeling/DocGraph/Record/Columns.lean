import DocGraph.Record.Basic
/-!
# Records in columns

A record can be laid out in columns: the values of the declared fields, the marks of the defaults
that stand in for missing ones, and the other fields.  Calls work on the columns in place and step
by step, and an error undoes nothing of what was done before it.
-/

namespace DocGraph

/-- A record in columns; the first two have an entry for each declared field. -/
structure Columns where
  schema : Schema
  values : List (Option Value)
  defaulted : List Bool
  extras : List (String × Value)

def Slot.isDefaulted : Slot → Bool
  | defaulted _ => true
  | _ => false

def Record.columns (record : Record) : Columns where
  schema := record.schema
  values := record.slots.map Slot.value?
  defaulted := record.slots.map Slot.isDefaulted
  extras := record.extras

namespace Columns

/-- Work on the columns of a record, which can fail midway; what was done before stays done. -/
abbrev Edit (α : Type) := ExceptT Error (StateM Columns) α

namespace Edit

def perform {α : Type} (edit : Edit α) (columns : Columns) : Except Error α × Columns :=
  edit.run.run columns

def setValue (position : Nat) (value : Option Value) : Edit Unit :=
  modify fun columns => { columns with values := columns.values.set position value }

/-- Says that what stands at a position is no default that stands in. -/
def unmark (position : Nat) : Edit Unit :=
  modify fun columns => { columns with defaulted := columns.defaulted.set position false }

def setExtras (extras : List (String × Value)) : Edit Unit :=
  modify fun columns => { columns with extras }

def unknown {α : Type} (name : String) : Edit α := do
  throw (.unknownField name (← get).schema.name)

def set (name : String) (value : Value) : Edit Unit := do
  let columns ← get
  match columns.schema.position? name with
  | some position =>
    match columns.schema.fields[position]? with
    | some field =>
      let accepted ← field.accept value
      setValue position (some accepted)
      unmark position
    | none => unknown name
  | none =>
    if columns.schema.isOpen ∧ name ∉ Schema.reservedAttributes then
      setExtras (Record.putExtra name value columns.extras)
    else unknown name

def remove (name : String) : Edit (Option Value) := do
  let columns ← get
  match columns.schema.position? name with
  | some position =>
    unmark position
    setValue position none
    return columns.values[position]?.join
  | none =>
    if columns.schema.isOpen then
      setExtras (Record.dropExtra name columns.extras)
      return columns.extras.lookup name
    else unknown name

end Edit

end Columns

end DocGraph
