import DocGraph.Graph
import DocGraph.Query.Condition
/-!
# Queries

A query starts from the documents of a collection and is extended node by node; each node
stands on what the nodes before it bind.
-/

namespace DocGraph

inductive SortDirection where
  | asc
  | desc
deriving DecidableEq

structure SortKey where
  field : FieldRef
  direction : SortDirection

structure Binding where
  var : String
  schema : Schema

inductive Direction where
  | outbound
  | inbound
  | any
deriving DecidableEq

def Direction.keyword : Direction → String
  | outbound => "OUTBOUND"
  | inbound => "INBOUND"
  | any => "ANY"

inductive TraversalTarget where
  | graph (name : String)
  | edgeCollections (names : List String)

structure Traversal where
  direction : Direction
  minDepth : Nat
  maxDepth : Nat
  target : TraversalTarget
  vertex : Binding
  edge? : Option Binding
  start? : Option String

def Traversal.step (direction : Direction) (target : TraversalTarget) (var : String)
    (vertices : Schema) : Traversal :=
  ⟨direction, 1, 1, target, ⟨var, vertices⟩, none, none⟩

inductive ProjectionSource where
  | field (field : FieldRef)
  | var (name : String)

structure Projection where
  name : String
  source : ProjectionSource

def Projection.ofField (field : FieldRef) : Projection :=
  ⟨field.path.getLast?.getD "", .field field⟩

inductive QueryNode where
  | filter (condition : Condition)
  | sort (keys : List SortKey)
  | limit (offset : Option UInt64) (count : UInt64)
  | project (attributes : List Projection) (row : Schema)
  | traverse (traversal : Traversal)
  | join (binding : Binding)

namespace QueryNode

def kind : QueryNode → String
  | filter _ => "Filter"
  | sort _ => "Sort"
  | limit .. => "Limit"
  | project .. => "Project"
  | traverse _ => "Traverse"
  | join _ => "Join"

def bindings : QueryNode → List Binding
  | join binding => [binding]
  | traverse traversal => traversal.vertex :: traversal.edge?.toList
  | _ => []

/-- The alias that later nodes are about, if a node changes it. -/
def current? : QueryNode → Option Binding
  | join binding => some binding
  | traverse traversal => some traversal.vertex
  | _ => none

end QueryNode

structure Query where
  root : Binding
  nodes : List QueryNode

namespace Query

def rootAlias : String := "doc"

def ofSchema (schema : Schema) : Query := ⟨⟨rootAlias, schema⟩, []⟩

def bindings (query : Query) : List Binding :=
  query.root :: query.nodes.flatMap QueryNode.bindings

def current (query : Query) : Binding :=
  (query.nodes.reverse.findSome? QueryNode.current?).getD query.root

def resultSchema (query : Query) : Schema :=
  match query.nodes.getLast? with
  | some (.project _ row) => row
  | _ => query.current.schema

def binding? (query : Query) (var : String) : Option Binding :=
  query.bindings.find? fun binding => binding.var == var

def push (query : Query) (node : QueryNode) : Query :=
  { query with nodes := query.nodes ++ [node] }

end Query

end DocGraph
