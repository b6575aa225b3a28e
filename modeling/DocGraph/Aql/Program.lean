import DocGraph.Aql.Name
import DocGraph.Query.Basic
/-!
# AQL programs

A program is the tree of a query text.  Everything that a caller supplies as data stands in it as
a parameter; what is left are variables, attribute names, depths and the words of the
language.
-/

namespace DocGraph.Aql

inductive ParameterKind where
  | value
  | collection
  | edges
  | graph
  | offset
  | count
deriving DecidableEq

namespace ParameterKind

def stem : ParameterKind → String
  | value => "value"
  | collection => "collection"
  | edges => "edges"
  | graph => "graph"
  | offset => "offset"
  | count => "count"

def namesCollection : ParameterKind → Bool
  | collection | edges => true
  | _ => false

end ParameterKind

/-- A parameter: the parameters of each kind are numbered from zero. -/
structure Parameter where
  kind : ParameterKind
  index : Nat
deriving DecidableEq

namespace Parameter

/-- The name under which a value is sent; a second sign marks the name of a collection. -/
def key (parameter : Parameter) : String :=
  (if parameter.kind.namesCollection then "@" else "")
    ++ parameter.kind.stem ++ "_" ++ toString parameter.index

def text (parameter : Parameter) : String := "@" ++ parameter.key

end Parameter

structure Access where
  base : String
  path : List String

inductive Term where
  | parameter (parameter : Parameter)
  | access (access : Access)

inductive Connective where
  | and
  | or
deriving DecidableEq

inductive Formula where
  /-- A truth value that is sent along, for a group without parts. -/
  | truth (parameter : Parameter)
  | group (connective : Connective) (parts : List Formula)
  | negation (part : Formula)
  | presence (access : Access) (isPresent : Bool)
  /-- A comparison; the left side may be declared to be a list. -/
  | compare (left : Access) (isList : Bool) (operator : Operator) (right : Term)

inductive TraversalEdges where
  | graph (parameter : Parameter)
  | collections (parameters : List Parameter)

inductive Statement where
  | forEach (name : String) (collection : Parameter)
  | filter (condition : Formula)
  | sort (keys : List (Access × SortDirection))
  | limit (offset : Option Parameter) (count : Parameter)
  | traverse (vertex : String) (edge? : Option String) (minDepth maxDepth : Nat)
      (direction : Direction) (start : String) (edges : TraversalEdges)

inductive RowSource where
  | access (access : Access)
  | document (name : String)

inductive Result where
  | document (name : String)
  | row (attributes : List (String × RowSource))

structure Program where
  statements : List Statement
  result : Result

end DocGraph.Aql
