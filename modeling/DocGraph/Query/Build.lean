import DocGraph.Aql.Name
import DocGraph.Query.Basic
import DocGraph.Schema.Path
import DocGraph.Text.Quoted
/-!
# Extending queries

Every call checks what it is given against the aliases that are bound so far: fields are
resolved to an alias and a declared type when they are added, and aliases are bound once.
-/

namespace DocGraph

namespace Query

/-- Resolves a field; without an alias it belongs to the current one. -/
def resolveField (query : Query) (field : FieldRef) : Except Error FieldRef :=
  let var := field.var?.getD query.current.var
  match query.binding? var with
  | none => .error (.unknownField field.dotted "query")
  | some binding =>
    match binding.schema.resolvePath field.path with
    | .ok type? => .ok ⟨some var, field.path, type?⟩
    | .error _ => .error (.unknownField field.dotted binding.schema.name)

def resolveOperand (query : Query) : Operand → Except Error Operand
  | .literal value => .ok (.literal value)
  | .field field => do return .field (← query.resolveField field)

mutual
def resolve (query : Query) : Condition → Except Error Condition
  | .all parts => do return .all (← query.resolveParts parts)
  | .any parts => do return .any (← query.resolveParts parts)
  | .negation part => do return .negation (← query.resolve part)
  | .presence field isPresent => do return .presence (← query.resolveField field) isPresent
  | .compare field operator operand => do
    let operand ← query.resolveOperand operand
    return .compare (← query.resolveField field) operator operand
termination_by structural condition => condition

def resolveParts (query : Query) : List Condition → Except Error (List Condition)
  | [] => .ok []
  | part :: parts => do
    let part ← query.resolve part
    return part :: (← query.resolveParts parts)
termination_by structural parts => parts
end

def checkAlias (node var : String) : Except Error Unit :=
  if Aql.isVariable var then .ok ()
  else .error (.unsupportedQuery node (Text.quoted var ++ " is not a valid variable name"))

def checkNewAlias (query : Query) (node var : String) : Except Error Unit := do
  checkAlias node var
  if (query.binding? var).isSome then
    throw (.unsupportedQuery node ("alias " ++ var ++ " is already bound"))

def withAlias (schema : Schema) (var : String) : Except Error Query := do
  checkAlias "Query" var
  return ⟨⟨var, schema⟩, []⟩

def filter (query : Query) (condition : Condition) : Except Error Query := do
  return query.push (.filter (← query.resolve condition))

def sortBy (query : Query) (keys : List SortKey) : Except Error Query := do
  return query.push (.sort (← keys.mapM fun key => do
    return ⟨← query.resolveField key.field, key.direction⟩))

def limit (query : Query) (count : UInt64) : Query := query.push (.limit none count)

def slice (query : Query) (offset count : UInt64) : Query :=
  query.push (.limit (some offset) count)

def resolveSource (query : Query) :
    ProjectionSource → Except Error (ProjectionSource × FieldType)
  | .field field => do
    let field ← query.resolveField field
    return (.field field, field.type?.getD .any)
  | .var name =>
    if (query.binding? name).isSome then .ok (.var name, .any)
    else .error (.unknownField name "query")

/-- Resolves the attributes of a row, given the names before them. -/
def resolveAttributes (query : Query) (names : List String) :
    List Projection → Except Error (List (Projection × FieldType))
  | [] => .ok []
  | projection :: rest => do
    if projection.name = "" ∨ projection.name ∈ names then
      throw (.unsupportedQuery "Project"
        ("invalid or duplicate attribute name " ++ Text.quoted projection.name))
    let (source, type) ← query.resolveSource projection.source
    return (⟨projection.name, source⟩, type)
      :: (← query.resolveAttributes (projection.name :: names) rest)

def rowSchema (query : Query) (attributes : List (Projection × FieldType)) : Schema where
  name := query.root.schema.name ++ "#projection"
  kind := .embedded
  fields := attributes.map fun (projection, type) =>
    ⟨projection.name, type, false, none, false, none⟩
  isOpen := false
  keyFields := []

def project (query : Query) (projections : List Projection) : Except Error Query := do
  let attributes ← query.resolveAttributes [] projections
  if attributes.isEmpty then throw (.unsupportedQuery "Project" "nothing to project")
  return query.push (.project (attributes.map (·.1)) (query.rowSchema attributes))

def traverse (query : Query) (traversal : Traversal) : Except Error Query := do
  let start := traversal.start?.getD query.current.var
  if (query.binding? start).isNone then throw (.unknownField (start ++ "._id") "query")
  query.checkNewAlias "Traverse" traversal.vertex.var
  match traversal.edge? with
  | some edge =>
    query.checkNewAlias "Traverse" edge.var
    if edge.var = traversal.vertex.var then
      throw (.unsupportedQuery "Traverse" ("alias " ++ edge.var ++ " bound twice"))
  | none => pure ()
  return query.push (.traverse { traversal with start? := some start })

def join (query : Query) (var : String) (schema : Schema) : Except Error Query := do
  query.checkNewAlias "Join" var
  return query.push (.join ⟨var, schema⟩)

def joinOn (query : Query) (var : String) (schema : Schema) (condition : Condition) :
    Except Error Query := do
  (← query.join var schema).filter condition

end Query

end DocGraph
