import DocGraph.Schema.Accept
/-!
# Records as ordered maps

A record maps names to values: the declared fields that are present, in schema order, and then,
under an open schema, the fields that were added, in the order in which they came.
-/

namespace DocGraph.Record

def newSlot (field : FieldSpec) : Drawn Slot := fun moment =>
  match field.defaultValue? with
  | some value => .held (value moment)
  | none => .absent

def new (schema : Schema) : Drawn Record := fun moment =>
  ⟨schema, Drawn.all (schema.fields.map newSlot) moment, []⟩

def slotValue? (record : Record) (position : Nat) : Option Value :=
  record.slots[position]?.bind Slot.value?

def unknown {α : Type} (record : Record) (name : String) : Except Error α :=
  .error (.unknownField name record.schema.name)

def get? (record : Record) (name : String) : Except Error (Option Value) :=
  match record.schema.position? name with
  | some position => .ok (record.slotValue? position)
  | none => if record.schema.isOpen then .ok (record.extras.lookup name) else record.unknown name

/-- Replaces a pair of a list, or adds it at the end. -/
def putExtra (name : String) (value : Value) : List (String × Value) → List (String × Value)
  | [] => [(name, value)]
  | (key, old) :: extras =>
    if key = name then (key, value) :: extras else (key, old) :: putExtra name value extras

def dropExtra (name : String) : List (String × Value) → List (String × Value)
  | [] => []
  | (key, old) :: extras => if key = name then extras else (key, old) :: dropExtra name extras

def set (record : Record) (name : String) (value : Value) : Except Error Record :=
  match record.schema.position? name with
  | some position =>
    match record.schema.fields[position]? with
    | some field => do
      let accepted ← field.accept value
      return { record with slots := record.slots.set position (.held accepted) }
    | none => record.unknown name
  | none =>
    if record.schema.isOpen ∧ name ∉ Schema.reservedAttributes then
      .ok { record with extras := putExtra name value record.extras }
    else record.unknown name

def remove (record : Record) (name : String) : Except Error (Option Value × Record) :=
  match record.schema.position? name with
  | some position =>
    .ok (record.slotValue? position, { record with slots := record.slots.set position .absent })
  | none =>
    if record.schema.isOpen then
      .ok (record.extras.lookup name, { record with extras := dropExtra name record.extras })
    else record.unknown name

def contains (record : Record) (name : String) : Bool :=
  match record.get? name with
  | .ok (some _) => true
  | _ => false

def entries (record : Record) : List (String × Value) :=
  ((record.schema.fields.zip record.slots).filterMap fun (field, slot) =>
    slot.value?.map (field.name, ·)) ++ record.extras

def keys (record : Record) : List String := record.entries.map (·.1)

def size (record : Record) : Nat := record.entries.length

end DocGraph.Record
