import DocGraph.Proofs.Aql.Lexeme
import DocGraph.Proofs.Aql.Written
/-!
# The grammar of programs

A program loops over a collection, has one clause after the other and returns a document or a row.
Whatever the grammar lists has at least one item, and whatever it quotes has a name.
-/

namespace DocGraph.Aql

/-! ## Conditions -/

def isCollectionKey (key : String) : Bool := key.toList.head? == some '@'

inductive IsAttribute : List Token → Prop
  | path (var : String) (names : List String) : names ≠ [] → "" ∉ names →
      IsAttribute (.name var :: names.flatMap fun name => [.dot, .quoted name])

def functions : List String := ["CONTAINS", "STARTS_WITH", "RIGHT", "LENGTH"]

inductive IsExpression : List Token → Prop
  | null : IsExpression [.keyword "NULL"]
  | parameter (key : String) : isCollectionKey key = false → IsExpression [.parameter key]
  | access {tokens : List Token} : IsAttribute tokens → IsExpression tokens
  | call (function : String) (arguments : List (List Token)) : function ∈ functions →
      arguments ≠ [] → (∀ argument ∈ arguments, IsExpression argument) →
      IsExpression ([.name function, .opening] ++ [.comma].intercalate arguments ++ [.closing])

def comparisons : List (List Token) := [
  [.relation .equal], [.relation .unequal], [.relation .less], [.relation .atMost],
  [.relation .greater], [.relation .atLeast], [.keyword "IN"], [.keyword "NOT", .keyword "IN"],
  [.keyword "ANY", .keyword "IN"], [.keyword "NONE", .keyword "IN"]]

/-- Conditions: parentheses stand around a group and behind the negation of a condition. -/
inductive IsCondition : List Token → Prop
  | expression {tokens : List Token} : IsExpression tokens → IsCondition tokens
  | comparison {left between right : List Token} : IsExpression left → between ∈ comparisons →
      IsExpression right → IsCondition (left ++ between ++ right)
  | notExpression {tokens : List Token} : IsExpression tokens →
      IsCondition (.keyword "NOT" :: tokens)
  | negation {tokens : List Token} : IsCondition tokens →
      IsCondition ([.keyword "NOT", .opening] ++ tokens ++ [.closing])
  | group (connective : Connective) (parts : List (List Token)) : 2 ≤ parts.length →
      (∀ part ∈ parts, IsCondition part) →
      IsCondition (.opening :: [connective.token].intercalate parts ++ [.closing])

/-! ## Programs -/

def keyword (word : String) : Lexeme := .token (.keyword word)

def variableNamed (var : String) : Lexeme := .token (.name var)

inductive IsValue : List Lexeme → Prop
  | parameter (key : String) : isCollectionKey key = false → IsValue [.token (.parameter key)]

inductive IsCollection : List Lexeme → Prop
  | parameter (key : String) : isCollectionKey key = true →
      IsCollection [.token (.parameter key)]

inductive IsLoop : List Lexeme → Prop
  | over (var : String) {collection : List Lexeme} : IsCollection collection →
      IsLoop ([keyword "FOR", variableNamed var, keyword "IN"] ++ collection)

inductive IsKey : List Lexeme → Prop
  | by {tokens : List Token} (direction : String) : IsAttribute tokens →
      direction ∈ ["ASC", "DESC"] → IsKey (tokens.map .token ++ [keyword direction])

inductive IsEdges : List Lexeme → Prop
  | graph {name : List Lexeme} : IsValue name → IsEdges (keyword "GRAPH" :: name)
  | collections (parts : List (List Lexeme)) : parts ≠ [] →
      (∀ part ∈ parts, IsCollection part) → IsEdges ([.token .comma].intercalate parts)

inductive IsStepVariables : List Lexeme → Prop
  | vertex (var : String) : IsStepVariables [variableNamed var]
  | vertexAndEdge (var edge : String) :
      IsStepVariables [variableNamed var, .token .comma, variableNamed edge]

inductive IsClause : String → List Lexeme → Prop
  | filter {condition : List Token} : IsCondition condition →
      IsClause "Filter" (keyword "FILTER" :: condition.map .token)
  | sort (keys : List (List Lexeme)) : keys ≠ [] → (∀ key ∈ keys, IsKey key) →
      IsClause "Sort" (keyword "SORT" :: [.token .comma].intercalate keys)
  | limit {count : List Lexeme} : IsValue count → IsClause "Limit" (keyword "LIMIT" :: count)
  | slice {offset count : List Lexeme} : IsValue offset → IsValue count →
      IsClause "Limit" (keyword "LIMIT" :: offset ++ [.token .comma] ++ count)
  | join {loop : List Lexeme} : IsLoop loop → IsClause "Join" loop
  | traverse {vars edges : List Lexeme} (minDepth maxDepth : Nat) (direction start : String) :
      IsStepVariables vars → minDepth ≤ maxDepth →
      direction ∈ ["OUTBOUND", "INBOUND", "ANY"] → IsEdges edges →
      IsClause "Traverse" (keyword "FOR" :: vars ++ [keyword "IN",
        .number (toString minDepth), .token .dot, .token .dot, .number (toString maxDepth),
        keyword direction, variableNamed start, .token .dot, variableNamed "_id"] ++ edges)

inductive IsRowAttribute : List Lexeme → Prop
  | field {name : String} {source : List Token} : name ≠ "" → IsAttribute source →
      IsRowAttribute ([.token (.quoted name), .colon] ++ source.map .token)
  | document {name : String} (var : String) : name ≠ "" →
      IsRowAttribute [.token (.quoted name), .colon, variableNamed var]

inductive IsResult : List Lexeme → Prop
  | document (var : String) : IsResult [variableNamed var]
  | row (parts : List (List Lexeme)) : parts ≠ [] → (∀ part ∈ parts, IsRowAttribute part) →
      IsResult (.braceOpening :: [.token .comma].intercalate parts ++ [.braceClosing])

/-- What stands behind the first loop: a clause for each node of the given kinds, in their order,
and what is returned. -/
inductive IsBody : List String → List Lexeme → Prop
  | result {result : List Lexeme} : IsResult result → IsBody [] (keyword "RETURN" :: result)
  | clause {kind : String} {kinds : List String} {clause rest : List Lexeme} :
      IsClause kind clause → IsBody kinds rest → IsBody (kind :: kinds) (clause ++ rest)

inductive IsProgram : List String → List Lexeme → Prop
  | program {kinds : List String} {loop body : List Lexeme} : IsLoop loop → IsBody kinds body →
      IsProgram kinds (loop ++ body)

/-! ## Conditions that compare -/

theorem isCondition_call {function : String} {left right : List Token}
    (hfunction : function ∈ functions) (hleft : IsExpression left) (hright : IsExpression right) :
    IsExpression ([.name function, .opening] ++ left ++ [.comma] ++ right ++ [.closing]) := by
  have hcall := IsExpression.call function [left, right] hfunction (by simp)
    (by simp [hleft, hright])
  simpa using hcall

theorem isCondition_compare (isList : Bool) (operator : Operator) {left right : List Token}
    (hleft : IsExpression left) (hright : IsExpression right) :
    IsCondition (compareTokens isList operator left right) := by
  have hinfix : ∀ between ∈ comparisons, IsCondition (left ++ between ++ right) :=
    fun between hbetween => .comparison hleft hbetween hright
  have hflipped : ∀ between ∈ comparisons, IsCondition (right ++ between ++ left) :=
    fun between hbetween => .comparison hright hbetween hleft
  cases operator with
  | eq => exact hinfix _ (by decide)
  | ne => exact hinfix _ (by decide)
  | gt => exact hinfix _ (by decide)
  | gte => exact hinfix _ (by decide)
  | lt => exact hinfix _ (by decide)
  | lte => exact hinfix _ (by decide)
  | contains =>
      cases isList with
      | true => exact hflipped _ (by decide)
      | false => exact .expression (isCondition_call (by decide) hleft hright)
  | notContains =>
      cases isList with
      | true => exact hflipped _ (by decide)
      | false => exact .notExpression (isCondition_call (by decide) hleft hright)
  | startsWith => exact .expression (isCondition_call (by decide) hleft hright)
  | endsWith =>
      have hlength : IsExpression ([.name "LENGTH", .opening] ++ right ++ [.closing]) := by
        simpa using IsExpression.call "LENGTH" [right] (by decide) (by simp) (by simpa using hright)
      have hend := isCondition_call (by decide : "RIGHT" ∈ functions) hleft hlength
      have hequal := IsCondition.comparison hend (by decide : [.relation .equal] ∈ comparisons)
        hright
      simpa [compareTokens] using hequal
  | anyOf =>
      cases isList with
      | true => exact hinfix _ (by decide)
      | false => exact hinfix _ (by decide)
  | noneOf =>
      cases isList with
      | true => exact hinfix _ (by decide)
      | false => exact hinfix _ (by decide)

end DocGraph.Aql
