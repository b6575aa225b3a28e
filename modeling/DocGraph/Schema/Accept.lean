import DocGraph.Error
import DocGraph.Value.Basic
/-!
# Accepting values

A value that is put into a field is checked against the field's type.  Null fits every type;
an integer is widened where a float is asked for, inside lists too; a record fits a nested type
when its schema has the asked-for name.
-/

namespace DocGraph

def FieldType.check (field : String) : FieldType → Value → Except Error Value
  | _, .null => .ok .null
  | .primitive .any, value => .ok value
  | .primitive .string, .string s => .ok (.string s)
  | .primitive .int, .int i => .ok (.int i)
  | .primitive .float, .float x => .ok (.float x)
  | .primitive .float, .int i => .ok (.float (Binary64.ofInt i.toInt))
  | .primitive .bool, .bool b => .ok (.bool b)
  | .primitive .datetime, .datetime instant => .ok (.datetime instant)
  | .primitive .uuid, .uuid id => .ok (.uuid id)
  | .nested schema, .object record =>
    if record.schema.name = schema.name then .ok (.object record)
    else .error (.invalidValue field ("object<" ++ schema.name ++ ">")
      ("object<" ++ record.schema.name ++ ">"))
  | .listOf item, .list items => do
    return .list (← items.mapM fun value => item.check field value)
  | type, value => .error (.invalidValue field type.describe value.typeName)
termination_by structural type => type

/-- Checks a value that is put into a field; a required field takes no null. -/
def FieldSpec.accept (field : FieldSpec) (value : Value) : Except Error Value :=
  if value.isNull ∧ field.isRequired then
    .error (.invalidValue field.name field.type.describe "null")
  else field.type.check field.name value

end DocGraph
