import DocGraph.Schema.Basic
import DocGraph.Text.Parts
/-!
# Conditions

A condition compares fields with literals or with other fields and joins comparisons with the
logical connectives.  A field is named by a path and, optionally, by the alias of the documents
that it belongs to; resolving a condition fills in the alias and the declared type.
-/

namespace DocGraph

structure FieldRef where
  var? : Option String
  path : List String
  type? : Option FieldType

namespace FieldRef

def ofPath (path : List String) : FieldRef := ⟨none, path, none⟩

def ofDotted (path : String) : FieldRef := ofPath (Text.split '.' path)

def ofAlias (var path : String) : FieldRef := { ofDotted path with var? := some var }

def dotted (field : FieldRef) : String :=
  let path := ".".intercalate field.path
  match field.var? with
  | some var => var ++ "." ++ path
  | none => path

def isList (field : FieldRef) : Bool :=
  match field.type? with
  | some type => type.isList
  | none => false

end FieldRef

inductive Operator where
  | eq
  | ne
  | gt
  | gte
  | lt
  | lte
  | contains
  | notContains
  | startsWith
  | endsWith
  | anyOf
  | noneOf
deriving DecidableEq

namespace Operator

def all : List Operator :=
  [eq, ne, gt, gte, lt, lte, contains, notContains, startsWith, endsWith, anyOf, noneOf]

def name : Operator → String
  | eq => "eq"
  | ne => "ne"
  | gt => "gt"
  | gte => "gte"
  | lt => "lt"
  | lte => "lte"
  | contains => "contains"
  | notContains => "not_contains"
  | startsWith => "starts_with"
  | endsWith => "ends_with"
  | anyOf => "any_of"
  | noneOf => "none_of"

def ofName? (name : String) : Option Operator := all.find? fun operator => operator.name == name

end Operator

inductive Operand where
  | literal (value : Json)
  | field (field : FieldRef)

inductive Condition where
  | all (parts : List Condition)
  | any (parts : List Condition)
  | negation (part : Condition)
  | presence (field : FieldRef) (isPresent : Bool)
  | compare (field : FieldRef) (operator : Operator) (operand : Operand)

namespace Condition

/-- Both conditions; a conjunction takes the second as one more part. -/
def andAlso : Condition → Condition → Condition
  | all parts, other => all (parts ++ [other])
  | first, other => all [first, other]

def orElse : Condition → Condition → Condition
  | any parts, other => any (parts ++ [other])
  | first, other => any [first, other]

end Condition

end DocGraph
