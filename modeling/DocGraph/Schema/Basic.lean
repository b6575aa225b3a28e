import DocGraph.CollectionType
import DocGraph.Drawn
import DocGraph.Json.Basic
import DocGraph.Time.Instant
import DocGraph.Uuid
/-!
# Schemas, values and records

A schema declares the fields of a record; a field may hold records of another schema, and it
may have a default value.  So schemas, values and records are defined together.  A record keeps
one slot for each declared field, in the order of the declarations.
-/

namespace DocGraph

inductive Primitive where
  | string
  | int
  | float
  | bool
  | datetime
  | uuid
  | any
deriving DecidableEq

inductive SchemaKind where
  | document
  | edge
  | embedded
deriving DecidableEq

/-- A way of writing a field that differs from the one of its type. -/
inductive Codec where
  /-- An instant as milliseconds since the beginning of 1970. -/
  | epochMillis
  /-- A codec that the program brings along; the number tells which. -/
  | custom (number : Nat)
deriving DecidableEq

mutual

inductive FieldType where
  | primitive (kind : Primitive)
  | nested (schema : Schema)
  | listOf (item : FieldType)

/-- The default of a field: a value, or a factory that is asked whenever one is needed. -/
inductive DefaultValue where
  | fixed (value : Value)
  | factory (products : Moment → Value)

structure FieldSpec where
  name : String
  type : FieldType
  isRequired : Bool
  default? : Option DefaultValue
  omitsDefault : Bool
  codec? : Option Codec

/-- The declaration of a kind of records.  An open schema lets records hold fields that it does
not declare. -/
structure Schema where
  name : String
  kind : SchemaKind
  fields : List FieldSpec
  isOpen : Bool
  keyFields : List String

/-- What a record holds for a declared field: nothing, a default that stands in for a missing
field, or a value of its own. -/
inductive Slot where
  | absent
  | defaulted (value : Value)
  | held (value : Value)

structure Record where
  schema : Schema
  slots : List Slot
  extras : List (String × Value)

inductive Value where
  | null
  | bool (value : Bool)
  | int (value : Int64)
  | float (value : Binary64)
  | string (value : String)
  | datetime (value : Instant)
  | uuid (value : Uuid)
  | list (items : List Value)
  | object (record : Record)
  | json (value : Json)

end

instance : Inhabited Value := ⟨.null⟩

namespace Primitive

def name : Primitive → String
  | string => "string"
  | int => "int"
  | float => "float"
  | bool => "bool"
  | datetime => "datetime"
  | uuid => "uuid"
  | any => "any"

def ofName? (name : String) : Option Primitive :=
  [string, int, float, bool, datetime, uuid, any].find? fun kind => kind.name == name

end Primitive

namespace SchemaKind

def collectionType? : SchemaKind → Option CollectionType
  | document => some .document
  | edge => some .edge
  | embedded => none

def name : SchemaKind → String
  | document => "document"
  | edge => "edge"
  | embedded => "embedded"

def ofName? (name : String) : Option SchemaKind :=
  [document, edge, embedded].find? fun kind => kind.name == name

end SchemaKind

namespace FieldType

def string : FieldType := primitive .string

def any : FieldType := primitive .any

def isList : FieldType → Bool
  | listOf _ => true
  | _ => false

def isPrimitive : FieldType → Bool
  | primitive _ => true
  | _ => false

def describe : FieldType → String
  | primitive kind => kind.name
  | nested schema => "object<" ++ schema.name ++ ">"
  | listOf item => "list<" ++ item.describe ++ ">"
termination_by structural type => type

/-- Whether two types are the same; nested types are told apart by the names of their schemas. -/
def agrees : FieldType → FieldType → Bool
  | primitive a, primitive b => a == b
  | nested a, nested b => a.name == b.name
  | listOf a, listOf b => a.agrees b
  | _, _ => false
termination_by structural type => type

end FieldType

def DefaultValue.produce : DefaultValue → Drawn Value
  | fixed value, _ => value
  | factory products, moment => products moment

def FieldSpec.defaultValue? (field : FieldSpec) : Option (Drawn Value) :=
  field.default?.map DefaultValue.produce

def Slot.value? : Slot → Option Value
  | absent => none
  | defaulted value => some value
  | held value => some value

namespace Schema

def reservedAttributes : List String := ["_key", "_id", "_rev", "_from", "_to"]

def isEdge (schema : Schema) : Bool := schema.kind == .edge

def position? (schema : Schema) (name : String) : Option Nat :=
  schema.fields.findIdx? fun field => field.name == name

def field? (schema : Schema) (name : String) : Option FieldSpec :=
  schema.fields.find? fun field => field.name == name

end Schema

end DocGraph
