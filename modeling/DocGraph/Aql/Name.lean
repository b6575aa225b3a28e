/-!
# Names in AQL

A variable is a plain identifier that is no keyword.  Any other name, such as that of an attribute,
is written between backticks, where backticks and backslashes are escaped.
-/

namespace DocGraph.Aql

/-- The keywords, which are recognised in any case. -/
def keywords : List String := [
  "AGGREGATE", "ALL", "ALL_SHORTEST_PATHS", "AND", "ANY", "ASC", "AT", "COLLECT", "CURRENT",
  "DESC", "DISTINCT", "FALSE", "FILTER", "FOR", "GRAPH", "IN", "INBOUND", "INSERT", "INTO",
  "K_PATHS", "K_SHORTEST_PATHS", "LEAST", "LET", "LIKE", "LIMIT", "NEW", "NONE", "NOT", "NULL",
  "OLD", "OR", "OUTBOUND", "PRUNE", "REMOVE", "REPLACE", "RETURN", "SEARCH", "SHORTEST_PATH",
  "SORT", "TRUE", "UPDATE", "UPSERT", "WINDOW", "WITH"]

def isVariable (name : String) : Bool :=
  match name.toList with
  | [] => false
  | c :: rest =>
    (c.isAlpha || c = '_') && rest.all (fun c => c.isAlphanum || c = '_')
      && !keywords.contains (String.ofList (name.toList.map Char.toUpper))

def quoteChar (c : Char) : List Char :=
  if c = '\x60' ∨ c = '\\' then ['\\', c] else [c]

def quote (name : String) : String :=
  String.ofList ('\x60' :: name.toList.flatMap quoteChar ++ ['\x60'])

end DocGraph.Aql
