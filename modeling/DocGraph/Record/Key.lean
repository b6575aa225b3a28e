import DocGraph.Json.Compact
import DocGraph.Record.Basic
import DocGraph.Schema.Dump
import DocGraph.Text.Percent
/-!
# Computed keys

The key of a document can be computed from fields of its record.  Each field gives one part, its
text with unsafe characters escaped, and colons stand between the parts, so a colon inside a
part is escaped as well.
-/

namespace DocGraph

namespace Schema

def isKeyPartChar (c : Char) : Bool :=
  c.isAlphanum || "_-.@()+,=;$!*'".toList.contains c

def maxKeyBytes : Nat := 254

/-- The text of a written field: a string as it is, other values compactly. -/
def wireText : Json → String
  | .string s => s
  | json => json.compact

variable [CustomCodecs]

def keyPart (schema : Schema) (record : Record) (name : String) : Except Error String :=
  match schema.field? name with
  | none => .error (.unknownField name schema.name)
  | some field => do
    match ← record.get? name with
    | none => .error (.missingField name)
    | some value =>
      if value.isNull then .error (.missingField name)
      else return Text.percentEncode isKeyPartChar (wireText (← field.encode value))

def computeKey (schema : Schema) (record : Record) : Except Error (Option String) := do
  if schema.keyFields.isEmpty then return none
  let key := ":".intercalate (← schema.keyFields.mapM (schema.keyPart record))
  if maxKeyBytes < key.utf8ByteSize then
    throw (.invalidSchema ("computed key for " ++ schema.name ++ " is longer than "
      ++ toString maxKeyBytes ++ " bytes"))
  return some key

end Schema

end DocGraph
