import DocGraph.Aql.Program
/-!
# The text of AQL programs

Statements are separated by one space.  A group of conditions stands in parentheses, and so does
what a negation applies to, so no reader needs to know which connective binds tighter.
-/

namespace DocGraph.Aql

def Access.text (access : Access) : String :=
  access.base ++ String.join (access.path.map fun name => "." ++ quote name)

def Term.text : Term → String
  | parameter p => p.text
  | access a => a.text

/-- The text of a comparison; a list on the left is looked into where other values are searched
as text or compared as a whole. -/
def compareText (isList : Bool) (operator : Operator) (left right : String) : String :=
  match operator, isList with
  | .eq, _ => left ++ " == " ++ right
  | .ne, _ => left ++ " != " ++ right
  | .gt, _ => left ++ " > " ++ right
  | .gte, _ => left ++ " >= " ++ right
  | .lt, _ => left ++ " < " ++ right
  | .lte, _ => left ++ " <= " ++ right
  | .contains, true => right ++ " IN " ++ left
  | .contains, false => "CONTAINS(" ++ left ++ ", " ++ right ++ ")"
  | .notContains, true => right ++ " NOT IN " ++ left
  | .notContains, false => "NOT CONTAINS(" ++ left ++ ", " ++ right ++ ")"
  | .startsWith, _ => "STARTS_WITH(" ++ left ++ ", " ++ right ++ ")"
  | .endsWith, _ => "RIGHT(" ++ left ++ ", LENGTH(" ++ right ++ ")) == " ++ right
  | .anyOf, true => left ++ " ANY IN " ++ right
  | .anyOf, false => left ++ " IN " ++ right
  | .noneOf, true => left ++ " NONE IN " ++ right
  | .noneOf, false => left ++ " NOT IN " ++ right

def Connective.text : Connective → String
  | and => " AND "
  | or => " OR "

mutual
def Formula.text : Formula → String
  | .truth parameter => parameter.text
  | .group connective parts => "(" ++ connective.text.intercalate (formulaTexts parts) ++ ")"
  | .negation part => "NOT (" ++ part.text ++ ")"
  | .presence access isPresent => access.text ++ (if isPresent then " != null" else " == null")
  | .compare left isList operator right => compareText isList operator left.text right.text
termination_by structural formula => formula

def formulaTexts : List Formula → List String
  | [] => []
  | part :: parts => part.text :: formulaTexts parts
termination_by structural parts => parts
end

def directionText : SortDirection → String
  | .asc => "ASC"
  | .desc => "DESC"

def TraversalEdges.text : TraversalEdges → String
  | graph parameter => "GRAPH " ++ parameter.text
  | collections parameters => ", ".intercalate (parameters.map Parameter.text)

def Statement.text : Statement → String
  | forEach name collection => "FOR " ++ name ++ " IN " ++ collection.text
  | filter condition => "FILTER " ++ condition.text
  | sort keys =>
    "SORT " ++ ", ".intercalate (keys.map fun (access, direction) =>
      access.text ++ " " ++ directionText direction)
  | limit none count => "LIMIT " ++ count.text
  | limit (some offset) count => "LIMIT " ++ offset.text ++ ", " ++ count.text
  | traverse vertex edge? minDepth maxDepth direction start edges =>
    "FOR " ++ ", ".intercalate (vertex :: edge?.toList)
      ++ " IN " ++ toString minDepth ++ ".." ++ toString maxDepth
      ++ " " ++ direction.keyword ++ " " ++ start ++ "._id " ++ edges.text

def RowSource.text : RowSource → String
  | access a => a.text
  | document name => name

def Result.text : Result → String
  | document name => name
  | row attributes =>
    "\x7b" ++ ", ".intercalate (attributes.map fun (name, source) =>
      quote name ++ ": " ++ source.text) ++ "\x7d"

def Program.text (program : Program) : String :=
  " ".intercalate (program.statements.map Statement.text ++ ["RETURN " ++ program.result.text])

end DocGraph.Aql
