import DocGraph.Error
import DocGraph.Schema.Basic
/-!
# Paths

A path names an attribute of a document by the names on the way to it.  Its type is known when
every step is declared; below an untyped field, and outside what an open schema declares, any
path is accepted without a type.
-/

namespace DocGraph.Schema

/-- The type that a path without empty names leads to, if the path is accepted; `some none` when
it is accepted without a type. -/
def pathType? (schema : Schema) : List String → Option (Option FieldType)
  | [] => none
  | name :: rest =>
    if name ∈ reservedAttributes then
      if rest ≠ [] ∨ ((name = "_from" ∨ name = "_to") ∧ !schema.isEdge) then none
      else some (some .string)
    else
      match schema.field? name with
      | none => if schema.isOpen then some none else none
      | some field =>
        match rest, field.type with
        | [], type => some (some type)
        | rest, .nested inner => inner.pathType? rest
        | _, .primitive .any => some none
        | _, _ => none

def resolvePath (schema : Schema) (path : List String) : Except Error (Option FieldType) :=
  match if "" ∈ path then none else schema.pathType? path with
  | some type => .ok type
  | none => .error (.unknownField (".".intercalate path) schema.name)

end DocGraph.Schema
