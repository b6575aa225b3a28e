import DocGraph.Json.Basic
import DocGraph.Proofs.Aql.Token
/-!
# Reading conditions

Conditions are read by the rules of the language.  A disjunction is made of conjunctions, a
conjunction of comparisons, and a comparison of one or two plain expressions; a negation applies
to the plain expression behind it, which is a field, a parameter, a call or a condition in
parentheses.  A parameter stands for the value that is sent under its name.
-/

namespace DocGraph.Aql

inductive Expression where
  | value (value : Json)
  | attribute (base : String) (path : List String)
  | call (function : String) (arguments : List Expression)
  | compare (relation : Relation) (left right : Expression)
  | negation (part : Expression)
  | conjunction (left right : Expression)
  | disjunction (left right : Expression)

namespace Expression

/-- The truth of a condition, when the truth of what it does not join is assigned. -/
def holds (assign : Expression → Bool) : Expression → Bool
  | value (.bool b) => b
  | negation part => !part.holds assign
  | conjunction left right => left.holds assign && right.holds assign
  | disjunction left right => left.holds assign || right.holds assign
  | atom => assign atom

def atoms : Expression → List Expression
  | value (.bool _) => []
  | negation part => part.atoms
  | conjunction left right => left.atoms ++ right.atoms
  | disjunction left right => left.atoms ++ right.atoms
  | atom => [atom]

end Expression

abbrev Reader := List Token → Option (Expression × List Token)

def readPath : List Token → List String × List Token
  | .dot :: .quoted name :: rest => ((name :: (readPath rest).1), (readPath rest).2)
  | tokens => ([], tokens)

def readArguments (condition : Reader) : Nat → List Token → Option (List Expression × List Token)
  | 0, _ => none
  | fuel + 1, tokens => do
    let (argument, rest) ← condition tokens
    match rest with
    | .comma :: rest => do
      let (arguments, rest) ← readArguments condition fuel rest
      return (argument :: arguments, rest)
    | .closing :: rest => return ([argument], rest)
    | _ => none

def readPrimary (vars : Json.Members) (fuel : Nat) (condition : Reader) : Reader
  | .opening :: rest => do
    let (inner, rest) ← condition rest
    match rest with
    | .closing :: rest => return (inner, rest)
    | _ => none
  | .name function :: .opening :: rest => do
    let (arguments, rest) ← readArguments condition fuel rest
    return (.call function arguments, rest)
  | .name base :: rest => return (.attribute base (readPath rest).1, (readPath rest).2)
  | .parameter key :: rest => do return (.value (← Assoc.get? key vars), rest)
  | .keyword "NULL" :: rest => return (.value .null, rest)
  | _ => none

def readUnary (vars : Json.Members) (fuel : Nat) (condition : Reader) : Reader
  | .keyword "NOT" :: rest => do
    let (part, rest) ← readUnary vars fuel condition rest
    return (.negation part, rest)
  | tokens => readPrimary vars fuel condition tokens

def readRelation : List Token → Option (Relation × List Token)
  | .relation relation :: rest => some (relation, rest)
  | .keyword "IN" :: rest => some (.isIn, rest)
  | .keyword "NOT" :: .keyword "IN" :: rest => some (.notIn, rest)
  | .keyword "ANY" :: .keyword "IN" :: rest => some (.anyIn, rest)
  | .keyword "NONE" :: .keyword "IN" :: rest => some (.noneIn, rest)
  | _ => none

def readComparison (vars : Json.Members) (fuel : Nat) (condition : Reader) : Reader :=
  fun tokens => do
    let (left, rest) ← readUnary vars fuel condition tokens
    match readRelation rest with
    | some (relation, rest) => do
      let (right, rest) ← readUnary vars fuel condition rest
      return (.compare relation left right, rest)
    | none => return (left, rest)

def readMore (item : Reader) (separator : Token) (join : Expression → Expression → Expression) :
    Nat → Expression → Reader
  | 0, left, tokens => some (left, tokens)
  | fuel + 1, left, tokens =>
    match tokens with
    | [] => some (left, [])
    | token :: rest =>
      if token = separator then do
        let (right, rest) ← item rest
        readMore item separator join fuel (join left right) rest
      else some (left, token :: rest)

def readConjunction (vars : Json.Members) (fuel : Nat) (condition : Reader) : Reader :=
  fun tokens => do
    let (left, rest) ← readComparison vars fuel condition tokens
    readMore (readComparison vars fuel condition) (.keyword "AND") .conjunction fuel left rest

/-- A condition; every pair of parentheses takes one step. -/
def readCondition (vars : Json.Members) : Nat → Reader
  | 0 => fun _ => none
  | fuel + 1 => fun tokens => do
    let (left, rest) ← readConjunction vars fuel (readCondition vars fuel) tokens
    readMore (readConjunction vars fuel (readCondition vars fuel)) (.keyword "OR") .disjunction
      fuel left rest

def read? (vars : Json.Members) (text : String) : Option Expression := do
  let tokens ← tokens? text
  match ← readCondition vars (tokens.length + 1) tokens with
  | (condition, []) => some condition
  | _ => none

end DocGraph.Aql
