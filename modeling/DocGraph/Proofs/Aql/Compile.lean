import DocGraph.Aql.Compile
import DocGraph.Proofs.Outcome
/-!
# What compiling succeeds with

A compiled query is the text of a program together with the values that were bound on the way.
-/

namespace DocGraph

namespace Aql

def sent (bound : Bound) : Json.Members :=
  Assoc.ofList (bound.map fun entry => (entry.1.key, entry.2))

theorem run_bind_eq_ok_iff {α β : Type} {first : Compile α} {next : α → Compile β}
    {bound after : Bound} {b : β} :
    (first >>= next).run bound = .ok (b, after) ↔ ∃ a middle,
      first.run bound = .ok (a, middle) ∧ (next a).run middle = .ok (b, after) := by
  rw [StateT.run_bind, Outcome.bind_eq_ok_iff]
  constructor
  · rintro ⟨⟨a, middle⟩, hfirst, hnext⟩
    exact ⟨a, middle, hfirst, hnext⟩
  · rintro ⟨a, middle, hfirst, hnext⟩
    exact ⟨(a, middle), hfirst, hnext⟩

theorem run_pure_eq_ok_iff {α : Type} {a b : α} {bound after : Bound} :
    (pure a : Compile α).run bound = .ok (b, after) ↔ a = b ∧ bound = after := by
  constructor
  · intro h
    exact Prod.mk.inj (Except.ok.inj h)
  · rintro ⟨rfl, rfl⟩
    rfl

theorem compileNodes_project (current : String) (attributes : List Projection) (row : Schema)
    (rest : List QueryNode) :
    compileNodes current (.project attributes row :: rest) =
      match rest with
      | [] => pure ⟨[], compileRow current attributes⟩
      | node :: _ => throw (.unsupportedQuery node.kind "nodes cannot follow a projection") := by
  unfold compileNodes
  rfl

theorem compileNodes_cons (current : String) {node : QueryNode} (rest : List QueryNode)
    (h : ∀ attributes row, node ≠ .project attributes row) :
    compileNodes current (node :: rest) = do
      let statements ← compileNode current node
      let program ← compileNodes ((node.current?.map (·.var)).getD current) rest
      return { program with statements := statements ++ program.statements } := by
  cases node with
  | project attributes row => exact absurd rfl (h attributes row)
  | _ => simp only [compileNodes]

end Aql

namespace Query

theorem compile_eq_ok_iff {query : Query} {compiled : CompiledQuery} :
    query.compile = .ok compiled ↔ ∃ program bound,
      (Aql.compileQuery query).run [] = .ok (program, bound) ∧ compiled.text = program.text ∧
      compiled.bindVars = Aql.sent bound := by
  unfold compile
  rw [Outcome.bind_eq_ok_iff]
  constructor
  · rintro ⟨⟨program, bound⟩, hrun, h⟩
    obtain rfl := Except.ok.inj h
    exact ⟨program, bound, hrun, rfl, rfl⟩
  · rintro ⟨program, bound, hrun, htext, hvars⟩
    refine ⟨(program, bound), hrun, ?_⟩
    unfold Aql.sent at hvars
    dsimp only
    rw [← htext, ← hvars]
    rfl

end Query

end DocGraph
