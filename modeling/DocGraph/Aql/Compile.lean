import DocGraph.Aql.Render
import DocGraph.Error
import DocGraph.Json.Basic
/-!
# Compiling queries

A query is compiled node by node.  Each literal, number and name that a caller supplied is
bound to the next parameter of its kind, and the program mentions only the parameter.
-/

namespace DocGraph.Aql

/-- Parameters with their values, in the order in which they were bound. -/
abbrev Bound := List (Parameter × Json)

abbrev Compile (α : Type) := StateT Bound (Except Error) α

def bind (kind : ParameterKind) (value : Json) : Compile Parameter := do
  let bound ← get
  let parameter : Parameter := ⟨kind, (bound.filter fun entry => entry.1.kind == kind).length⟩
  set (bound ++ [(parameter, value)])
  return parameter

/-- The attribute that a field names; a field without alias belongs to the current variable. -/
def access (current : String) (field : FieldRef) : Access :=
  ⟨field.var?.getD current, field.path⟩

def compileOperand (current : String) : Operand → Compile Term
  | .literal value => return .parameter (← bind .value value)
  | .field field => return .access (access current field)

/-- Whether a comparison looks for its field among candidates that are not an array. -/
def lacksCandidates (operator : Operator) : Operand → Bool
  | .literal value => (operator == .anyOf || operator == .noneOf) && !value.isArray
  | .field _ => false

/-- The group of some conditions: none give a truth value, one stands for itself. -/
def group (connective : Connective) (parts : List Formula) : Compile Formula :=
  match parts with
  | [] => return .truth (← bind .value (.bool (connective == .and)))
  | [part] => return part
  | parts => return .group connective parts

mutual
def compileCondition (current : String) : Condition → Compile Formula
  | .all parts => do group .and (← compileConditions current parts)
  | .any parts => do group .or (← compileConditions current parts)
  | .negation part => return .negation (← compileCondition current part)
  | .presence field isPresent => return .presence (access current field) isPresent
  | .compare field operator operand => do
    if lacksCandidates operator operand then
      throw (.unsupportedQuery "Filter" (field.dotted ++ " needs an array of candidates"))
    return .compare (access current field) field.isList operator
      (← compileOperand current operand)
termination_by structural condition => condition

def compileConditions (current : String) : List Condition → Compile (List Formula)
  | [] => return []
  | part :: parts => do
    let part ← compileCondition current part
    return part :: (← compileConditions current parts)
termination_by structural parts => parts
end

def compileEdges : TraversalTarget → Compile TraversalEdges
  | .graph name => return .graph (← bind .graph (.string name))
  | .edgeCollections names => do
    if names.isEmpty then
      throw (.unsupportedQuery "Traverse" "no edge collections to follow")
    return .collections (← names.mapM fun name => bind .edges (.string name))

def compileTraversal (current : String) (traversal : Traversal) : Compile Statement := do
  if traversal.maxDepth < traversal.minDepth then
    throw (.unsupportedQuery "Traverse" ("depth " ++ toString traversal.minDepth ++ ".."
      ++ toString traversal.maxDepth ++ " is empty"))
  return .traverse traversal.vertex.var (traversal.edge?.map (·.var)) traversal.minDepth
    traversal.maxDepth traversal.direction (traversal.start?.getD current)
    (← compileEdges traversal.target)

def compileNode (current : String) : QueryNode → Compile (List Statement)
  | .filter condition => return [.filter (← compileCondition current condition)]
  | .sort keys => return [.sort (keys.map fun key => (access current key.field, key.direction))]
  | .limit none count => return [.limit none (← bind .count (.ofUInt64 count))]
  | .limit (some offset) count => do
    let offset ← bind .offset (.ofUInt64 offset)
    return [.limit (some offset) (← bind .count (.ofUInt64 count))]
  | .project .. => return []
  | .traverse traversal => return [← compileTraversal current traversal]
  | .join binding =>
    return [.forEach binding.var (← bind .collection (.string binding.schema.name))]

def compileRow (current : String) (attributes : List Projection) : Result :=
  .row (attributes.map fun projection =>
    (projection.name,
      match projection.source with
      | .field field => .access (access current field)
      | .var name => .document name))

/-- Compiles nodes, given the current variable; nothing may follow a projection. -/
def compileNodes (current : String) : List QueryNode → Compile Program
  | [] => return ⟨[], .document current⟩
  | .project attributes _ :: rest =>
    match rest with
    | [] => return ⟨[], compileRow current attributes⟩
    | node :: _ => throw (.unsupportedQuery node.kind "nodes cannot follow a projection")
  | node :: rest => do
    let statements ← compileNode current node
    let next := (node.current?.map (·.var)).getD current
    let program ← compileNodes next rest
    return { program with statements := statements ++ program.statements }

def compileQuery (query : Query) : Compile Program := do
  let collection ← bind .collection (.string query.root.schema.name)
  let program ← compileNodes query.root.var query.nodes
  return { program with
    statements := .forEach query.root.var collection :: program.statements }

end Aql

structure CompiledQuery where
  text : String
  bindVars : Json.Members

def Query.compile (query : Query) : Except Error CompiledQuery := do
  let (program, bound) ← (Aql.compileQuery query).run []
  let bindVars := bound.map fun (parameter, value) => (parameter.key, value)
  return ⟨program.text, Assoc.ofList bindVars⟩

def CompiledQuery.toJson (compiled : CompiledQuery) : Json :=
  .ofMembers [("query", .string compiled.text), ("bindVars", .object compiled.bindVars)]

end DocGraph
