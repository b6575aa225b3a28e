import DocGraph.Schema.Basic
/-!
# Reading values

The name of a value's type and its readings as plain data.  A value of an untyped field is read
as the JSON value it holds.
-/

namespace DocGraph.Value

def typeName : Value → String
  | null => "null"
  | bool _ => "bool"
  | int _ => "int"
  | float _ => "float"
  | string _ => "string"
  | datetime _ => "datetime"
  | uuid _ => "uuid"
  | list _ => "list"
  | object _ => "object"
  | json _ => "json"

def isNull : Value → Bool
  | null => true
  | json value => value.isNull
  | _ => false

def asBool? : Value → Option Bool
  | bool b => some b
  | json value => value.asBool?
  | _ => none

def asInt64? : Value → Option Int64
  | int i => some i
  | json value => value.asInt64?
  | _ => none

def asFloat? : Value → Option Binary64
  | float x => some x
  | int i => some (Binary64.ofInt i.toInt)
  | json value => value.asFloat?
  | _ => none

def asString? : Value → Option String
  | string s => some s
  | json value => value.asString?
  | _ => none

def asInstant? : Value → Option Instant
  | datetime instant => some instant
  | _ => none

def asUuid? : Value → Option Uuid
  | uuid id => some id
  | _ => none

def asList? : Value → Option (List Value)
  | list items => some items
  | _ => none

def asRecord? : Value → Option Record
  | object record => some record
  | _ => none

def asJson? : Value → Option Json
  | json value => some value
  | _ => none

end DocGraph.Value
