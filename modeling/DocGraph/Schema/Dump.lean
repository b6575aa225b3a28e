import DocGraph.Schema.Codec
import DocGraph.Time.Rfc3339
import DocGraph.Value.Agreement
/-!
# Dumping records

A record is written as the members of an object.  Defaults that stood in for missing fields are
not written, nor are values that equal the default of a field that omits it; a required field
must have a value.
-/

namespace DocGraph

def Json.ofFloat (field : String) (x : Binary64) : Except Error Json :=
  if h : x.isFinite = true then .ok (.number (.float x h))
  else .error (.invalidValue field "finite float" x.text)

section

variable [CustomCodecs]

/-- Writes the value of a field, whose plain form is given: null stays null, and a codec takes
the place of the plain form. -/
def FieldSpec.encodeWith (field : FieldSpec) (value : Value) (plain : Except Error Json) :
    Except Error Json :=
  match value, field.codec? with
  | .null, _ => .ok .null
  | value, some codec => codec.encode field.name value
  | _, none => plain

mutual

def Value.toJson (field : String) : Value → Except Error Json
  | .null => .ok .null
  | .bool b => .ok (.bool b)
  | .int i => .ok (Json.ofInt64 i)
  | .float x => Json.ofFloat field x
  | .string s => .ok (.string s)
  | .datetime instant => .ok (.string instant.rfc3339)
  | .uuid id => .ok (.string id.text)
  | .list items => do return .array (← itemsToJson field items)
  | .object record => do return .object (← record.dump)
  | .json value => .ok value
termination_by structural value => value

def itemsToJson (field : String) : List Value → Except Error (List Json)
  | [] => .ok []
  | item :: items => do
    let json ← item.toJson field
    return json :: (← itemsToJson field items)
termination_by structural items => items

def Record.dump : Record → Except Error Json.Members
  | ⟨schema, slots, extras⟩ => do dumpExtras extras (← dumpSlots schema.fields slots [])
termination_by structural record => record

def Slot.dump (field : FieldSpec) : Slot → Except Error (Option Json)
  | .absent => if field.isRequired then .error (.missingField field.name) else .ok none
  | .defaulted _ => .ok none
  | .held value =>
    if field.omitsDefault && field.isDefault value then .ok none
    else do return some (← field.encodeWith value (value.toJson field.name))
termination_by structural slot => slot

def dumpSlots : List FieldSpec → List Slot → Json.Members → Except Error Json.Members
  | field :: fields, slot :: slots, members => do
    match ← slot.dump field with
    | some json => dumpSlots fields slots (Assoc.insert field.name json members)
    | none => dumpSlots fields slots members
  | _, _, members => .ok members
termination_by structural _ slots => slots

def dumpExtras : List (String × Value) → Json.Members → Except Error Json.Members
  | [], members => .ok members
  | (key, value) :: extras, members => do
    let json ← value.toJson key
    dumpExtras extras (Assoc.insert key json members)
termination_by structural extras => extras

end

def FieldSpec.encode (field : FieldSpec) (value : Value) : Except Error Json :=
  field.encodeWith value (value.toJson field.name)

/-- Writes a record through a schema that need not be its own: the slots are matched with the
fields in order. -/
def Schema.dumpRecord (schema : Schema) (record : Record) (members : Json.Members) :
    Except Error Json.Members := do
  dumpExtras record.extras (← dumpSlots schema.fields record.slots members)

end

end DocGraph
