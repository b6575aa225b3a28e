import DocGraph.Proofs.Outcome
import DocGraph.Query.Build
/-!
# Queries as sequences of calls

A query is begun on the documents of a collection and extended by calls.  What a call is given
falls into two parts: the shape, such as the paths of fields, operators and aliases, and the data,
such as literals, numbers of documents and the names of collections and graphs.
-/

namespace DocGraph.Query

inductive Start where
  | documents (schema : Schema)
  | aliased (schema : Schema) (var : String)

def Start.query : Start → Except Error Query
  | documents schema => .ok (ofSchema schema)
  | aliased schema var => withAlias schema var

inductive Call where
  | filter (condition : Condition)
  | sortBy (keys : List SortKey)
  | limit (count : UInt64)
  | slice (offset count : UInt64)
  | project (projections : List Projection)
  | traverse (traversal : Traversal)
  | join (var : String) (schema : Schema)
  | joinOn (var : String) (schema : Schema) (condition : Condition)

def Call.apply (query : Query) : Call → Except Error Query
  | filter condition => query.filter condition
  | sortBy keys => query.sortBy keys
  | limit count => .ok (query.limit count)
  | slice offset count => .ok (query.slice offset count)
  | project projections => query.project projections
  | traverse traversal => query.traverse traversal
  | join var schema => query.join var schema
  | joinOn var schema condition => query.joinOn var schema condition

def build (start : Start) (calls : List Call) : Except Error Query := do
  calls.foldlM Call.apply (← start.query)

def startOf (query : Query) (traversal : Traversal) : String :=
  traversal.start?.getD query.current.var

theorem traverse_eq_ok_iff {query after : Query} {traversal : Traversal} :
    query.traverse traversal = .ok after ↔
      (query.binding? (query.startOf traversal)).isSome ∧
      query.checkNewAlias "Traverse" traversal.vertex.var = .ok () ∧
      (∀ edge, traversal.edge? = some edge →
        query.checkNewAlias "Traverse" edge.var = .ok () ∧ edge.var ≠ traversal.vertex.var) ∧
      after = query.push
        (.traverse { traversal with start? := some (query.startOf traversal) }) := by
  unfold traverse
  change (if (query.binding? (query.startOf traversal)).isNone = true then _ else _) = _ ↔ _
  cases hstart : query.binding? (query.startOf traversal) with
  | none => simp
  | some binding =>
      cases hvertex : query.checkNewAlias "Traverse" traversal.vertex.var with
      | error error => simp
      | ok _ =>
          cases hedge : traversal.edge? with
          | none => simp [startOf, @eq_comm _ after]
          | some edge =>
              cases hedgeVar : query.checkNewAlias "Traverse" edge.var with
              | error error => simp [hedgeVar]
              | ok _ =>
                  by_cases hsame : edge.var = traversal.vertex.var
                  · simp [hsame, hsame ▸ hedgeVar]
                  · simp [hedgeVar, hsame, startOf, @eq_comm _ after]

end DocGraph.Query
