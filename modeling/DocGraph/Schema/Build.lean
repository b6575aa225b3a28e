import DocGraph.Schema.Accept
import DocGraph.Text.Quoted
/-!
# Building schemas

A schema is built from a declaration that passes every check: names are well formed and told
apart, defaults fit their fields, and the key is made of scalar fields of the schema itself.
-/

namespace DocGraph.Schema

def isCollectionName (name : String) : Bool :=
  match name.toList with
  | [] => false
  | c :: rest =>
    c.isAlpha && rest.all (fun c => c.isAlphanum || c = '_' || c = '-')
      && name.utf8ByteSize ≤ 256

def invalid {α : Type} (name reason : String) : Except Error α :=
  .error (.invalidSchema (name ++ ": " ++ reason))

def checkFieldName (schema : String) (declared : List String) (name : String) :
    Except Error Unit :=
  if name = "" ∨ '.' ∈ name.toList then
    invalid schema ("invalid field name " ++ Text.quoted name)
  else if name ∈ reservedAttributes then invalid schema ("field name " ++ name ++ " is reserved")
  else if name ∈ declared then invalid schema ("duplicate field " ++ name)
  else .ok ()

/-- Checks a default as it is now; what a factory brings later is not checked. -/
def checkDefault (schema : String) (field : FieldSpec) : Except Error Unit :=
  match field.defaultValue? with
  | none => .ok ()
  | some value =>
    match field.accept (value .declared) with
    | .ok _ => .ok ()
    | .error error => invalid schema ("invalid default: " ++ error.message)

def checkFields (schema : String) (declared : List String) : List FieldSpec → Except Error Unit
  | [] => .ok ()
  | field :: fields => do
    checkFieldName schema declared field.name
    checkDefault schema field
    checkFields schema (field.name :: declared) fields

def checkKeyField (schema : String) (fields : List FieldSpec) (name : String) :
    Except Error Unit :=
  match fields.find? fun field => field.name == name with
  | none => invalid schema ("key field " ++ name ++ " is not declared")
  | some field =>
    if field.type.isPrimitive then .ok ()
    else invalid schema ("key field " ++ name ++ " must be a primitive")

def build (declaration : Schema) : Except Error Schema := do
  if declaration.kind ≠ .embedded ∧ !isCollectionName declaration.name then
    invalid declaration.name "invalid collection name"
  checkFields declaration.name [] declaration.fields
  if declaration.kind = .embedded ∧ declaration.keyFields ≠ [] then
    invalid declaration.name "embedded schemas have no key"
  declaration.keyFields.forM (checkKeyField declaration.name declaration.fields)
  return declaration

end DocGraph.Schema
