import DocGraph.Schema.Codec
import DocGraph.Text.Quoted
import DocGraph.Time.Rfc3339
/-!
# Loading records

A record is loaded from the members of an object: the declared fields in their order, then what
else the object holds.  A missing field takes its default, and the slot remembers that it did; an
integer in a float field stays an integer, so that it is written back as it was read.

Defaults are not checked here, so it does not depend on them whether a record is loaded, only what
it holds.
-/

namespace DocGraph

def Primitive.decode (field : String) : Primitive → Json → Except Error Value
  | .any, raw => .ok (.json raw)
  | _, .null => .ok .null
  | .string, .string s => .ok (.string s)
  | .int, raw =>
    match raw.asInt64? with
    | some i => .ok (.int i)
    | none => .error (mismatch field "int" raw)
  | .float, raw =>
    match raw.asInt64?, raw.asFloat? with
    | some i, _ => .ok (.int i)
    | none, some x => .ok (.float x)
    | none, none => .error (mismatch field "float" raw)
  | .bool, .bool b => .ok (.bool b)
  | .datetime, .string s =>
    match Instant.ofRfc3339? s with
    | some instant => .ok (.datetime instant)
    | none => .error (.invalidValue field "datetime" ("string " ++ Text.quoted s))
  | .uuid, .string s =>
    match Uuid.ofText? s with
    | some id => .ok (.uuid id)
    | none => .error (.invalidValue field "uuid" ("string " ++ Text.quoted s))
  | kind, raw => .error (mismatch field kind.name raw)

namespace Schema

def isIdentity (schema : Schema) (name : String) : Bool :=
  schema.kind != .embedded && reservedAttributes.contains name

/-- The members of an object that no field is declared for; only an open schema allows them. -/
def loadExtras (schema : Schema) : Json.Members → Except Error (List (String × Value))
  | [] => .ok []
  | (key, member) :: members =>
    if schema.isIdentity key || (schema.position? key).isSome then schema.loadExtras members
    else if schema.isOpen then do return (key, .json member) :: (← schema.loadExtras members)
    else .error (.unknownField key schema.name)

end Schema

section

variable [CustomCodecs]

mutual

def FieldType.decode (field : String) : FieldType → Json → Except Error (Drawn Value)
  | .primitive kind, raw => do
    let value ← kind.decode field raw
    return fun _ => value
  | .nested schema, raw =>
    match raw with
    | .null => .ok fun _ => .null
    | .object members => do
      let record ← schema.loadRecord members
      return fun moment => .object (record moment)
    | raw => .error (mismatch field ("object<" ++ schema.name ++ ">") raw)
  | .listOf item, raw =>
    match raw with
    | .null => .ok fun _ => .null
    | .array items => do
      let values ← items.mapM fun raw => item.decode field raw
      return fun moment => .list (Drawn.all values moment)
    | raw => .error (mismatch field ("list<" ++ item.describe ++ ">") raw)
termination_by structural type => type

def FieldSpec.loadSlot : FieldSpec → Json.Members → Except Error (Drawn Slot)
  | ⟨name, type, isRequired, default?, _, codec?⟩, members =>
    match Assoc.get? name members with
    | some .null =>
      if isRequired then .error (.invalidValue name type.describe "null")
      else .ok fun _ => .held .null
    | some raw =>
      match codec? with
      | some codec => do
        let value ← codec.decode name raw
        return fun _ => .held value
      | none => do
        let value ← type.decode name raw
        return fun moment => .held (value moment)
    | none =>
      match default? with
      | some default => .ok fun moment => .defaulted (default.produce moment)
      | none => if isRequired then .error (.missingField name) else .ok fun _ => .absent
termination_by structural field => field

def loadSlots : List FieldSpec → Json.Members → Except Error (List (Drawn Slot))
  | [], _ => .ok []
  | field :: fields, members => do
    let slot ← field.loadSlot members
    return slot :: (← loadSlots fields members)
termination_by structural fields => fields

def Schema.loadRecord : Schema → Json.Members → Except Error (Drawn Record)
  | ⟨name, kind, fields, isOpen, keyFields⟩, members => do
    let slots ← loadSlots fields members
    let schema : Schema := ⟨name, kind, fields, isOpen, keyFields⟩
    let extras ← schema.loadExtras members
    return fun moment => ⟨schema, Drawn.all slots moment, extras⟩
termination_by structural schema => schema

end

end

end DocGraph
