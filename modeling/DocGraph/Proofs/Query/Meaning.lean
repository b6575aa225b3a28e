import DocGraph.Proofs.Aql.Reading
import DocGraph.Proofs.Query.Named
/-!
# What conditions mean

A condition on the documents of a query is evaluated when the truth of every comparison is
assigned.  A comparison is about the field that the query resolves its path to; whether it looks
into a list is decided by the declared type.
-/

namespace DocGraph

namespace Query

def varOf (query : Query) (field : FieldRef) : String := field.var?.getD query.current.var

def declaredType? (query : Query) (field : FieldRef) : Option FieldType :=
  match query.binding? (query.varOf field) with
  | some binding => (binding.schema.pathType? field.path).join
  | none => none

def attributeOf (query : Query) (field : FieldRef) : Aql.Expression :=
  .attribute (query.varOf field) field.path

def operandOf (query : Query) : Operand → Aql.Expression
  | .literal value => .value value
  | .field field => query.attributeOf field

def comparisonOf (query : Query) (field : FieldRef) (operator : Operator) (operand : Operand) :
    Aql.Expression :=
  Aql.lower operator ((query.declaredType? field).any FieldType.isList) (query.attributeOf field)
    (query.operandOf operand)

def presenceOf (query : Query) (field : FieldRef) (isPresent : Bool) : Aql.Expression :=
  .compare (if isPresent then .unequal else .equal) (query.attributeOf field) (.value .null)

end Query

namespace Condition

variable (query : Query) (assign : Aql.Expression → Bool)

mutual
def holds : Condition → Bool
  | .all parts => (truths parts).all id
  | .any parts => (truths parts).any id
  | .negation part => !holds part
  | .presence field isPresent => (query.presenceOf field isPresent).holds assign
  | .compare field operator operand =>
    (query.comparisonOf field operator operand).holds assign
termination_by structural condition => condition

def truths : List Condition → List Bool
  | [] => []
  | part :: parts => holds part :: truths parts
termination_by structural parts => parts
end

mutual
def atoms : Condition → List Aql.Expression
  | .all parts => atomsOfParts parts
  | .any parts => atomsOfParts parts
  | .negation part => atoms part
  | .presence field isPresent => (query.presenceOf field isPresent).atoms
  | .compare field operator operand => (query.comparisonOf field operator operand).atoms
termination_by structural condition => condition

def atomsOfParts : List Condition → List Aql.Expression
  | [] => []
  | part :: parts => atoms part ++ atomsOfParts parts
termination_by structural parts => parts
end

end Condition

/-! ## Chains -/

namespace Condition

variable {query : Query} {assign : Aql.Expression → Bool}

theorem truths_append (parts others : List Condition) :
    truths query assign (parts ++ others)
      = truths query assign parts ++ truths query assign others := by
  induction parts with
  | nil => rfl
  | cons part parts ih => rw [List.cons_append, truths, truths, ih, List.cons_append]

theorem holds_andAlso (first second : Condition) :
    (first.andAlso second).holds query assign
      = (first.holds query assign && second.holds query assign) := by
  cases first with
  | all parts => simp [andAlso, holds, truths_append, truths]
  | _ => simp [andAlso, holds, truths]

theorem holds_orElse (first second : Condition) :
    (first.orElse second).holds query assign
      = (first.holds query assign || second.holds query assign) := by
  cases first with
  | any parts => simp [orElse, holds, truths_append, truths]
  | _ => simp [orElse, holds, truths]

def chain : Condition → List (Aql.Connective × Condition) → Condition
  | joined, [] => joined
  | joined, (.and, next) :: links => chain (joined.andAlso next) links
  | joined, (.or, next) :: links => chain (joined.orElse next) links

/-- The truth of a chain: each link is joined to the truth of what stands before it. -/
def chainTruth (query : Query) (assign : Aql.Expression → Bool) :
    Bool → List (Aql.Connective × Condition) → Bool
  | truth, [] => truth
  | truth, (.and, next) :: links =>
    chainTruth query assign (truth && next.holds query assign) links
  | truth, (.or, next) :: links =>
    chainTruth query assign (truth || next.holds query assign) links

theorem holds_chain (first : Condition) (links : List (Aql.Connective × Condition)) :
    (first.chain links).holds query assign
      = chainTruth query assign (first.holds query assign) links := by
  induction links generalizing first with
  | nil => rfl
  | cons link links ih =>
      obtain ⟨connective, next⟩ := link
      cases connective with
      | and => rw [chain, chainTruth, ih, holds_andAlso]
      | or => rw [chain, chainTruth, ih, holds_orElse]

end Condition

/-! ## Fields -/

namespace Query

variable {query : Query}

theorem resolveField_eq_ok {field resolved : FieldRef}
    (h : query.resolveField field = .ok resolved) :
    (query.binding? (query.varOf field)).isSome ∧
      resolved = ⟨some (query.varOf field), field.path, query.declaredType? field⟩ := by
  unfold resolveField at h
  dsimp only at h
  rw [show field.var?.getD query.current.var = query.varOf field from rfl] at h
  cases hbinding : query.binding? (query.varOf field) with
  | none => simp [hbinding] at h
  | some binding =>
      rw [hbinding] at h
      dsimp only at h
      refine ⟨rfl, ?_⟩
      have hpath : ∀ type?, binding.schema.resolvePath field.path = .ok type? →
          query.declaredType? field = type? := by
        intro type? htype
        unfold Schema.resolvePath at htype
        by_cases hempty : "" ∈ field.path
        · rw [if_pos hempty] at htype
          cases htype
        · rw [if_neg hempty] at htype
          unfold declaredType?
          rw [hbinding]
          cases hdeclared : binding.schema.pathType? field.path with
          | none => simp [hdeclared] at htype
          | some declared =>
              rw [hdeclared] at htype
              obtain rfl : declared = type? := Except.ok.inj htype
              dsimp only
              rw [hdeclared]
              rfl
      cases hresolved : binding.schema.resolvePath field.path with
      | error error => simp [hresolved] at h
      | ok type? =>
          rw [hresolved] at h
          rw [hpath type? hresolved]
          exact (Except.ok.inj h).symm

theorem IsNamed.varOf (hnamed : query.IsNamed) {field resolved : FieldRef}
    (h : query.resolveField field = .ok resolved) :
    Aql.isVariable (query.varOf field) = true := by
  obtain ⟨hbound, _⟩ := resolveField_eq_ok h
  exact binding?_isVariable hnamed hbound

end Query

end DocGraph
