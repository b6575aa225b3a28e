import DocGraph.Proofs.Aql.Stepwise
import DocGraph.Proofs.Aql.Written
import DocGraph.Proofs.Assoc
import Mathlib
/-!
# The values of parameters

Compiling only appends to what is bound, and a new parameter has a number that no parameter of its
kind has; so the values that are sent are the ones that were bound.
-/

namespace DocGraph.Aql

def count (kind : ParameterKind) (bound : Bound) : Nat :=
  (bound.filter fun entry => entry.1.kind == kind).length

/-- No parameter is bound twice, and the numbers of each kind are those below its count. -/
structure Numbered (bound : Bound) : Prop where
  nodup : (bound.map Prod.fst).Nodup
  index_lt : ∀ entry ∈ bound, entry.1.index < count entry.1.kind bound

theorem numbered_nil : Numbered [] := ⟨List.nodup_nil, by simp⟩

theorem count_append (kind : ParameterKind) (bound more : Bound) :
    count kind (bound ++ more) = count kind bound + count kind more := by
  unfold count
  rw [List.filter_append, List.length_append]

theorem numbered_append {bound : Bound} (h : Numbered bound) (kind : ParameterKind)
    (value : Json) : Numbered (bound ++ [(⟨kind, count kind bound⟩, value)]) := by
  have hfresh : (⟨kind, count kind bound⟩ : Parameter) ∉ bound.map Prod.fst := by
    intro hmem
    obtain ⟨entry, hentry, heq⟩ := List.mem_map.1 hmem
    have hlt := h.index_lt entry hentry
    rw [heq] at hlt
    exact Nat.lt_irrefl _ hlt
  constructor
  · rw [List.map_append, List.nodup_append]
    refine ⟨h.nodup, List.nodup_singleton _, ?_⟩
    intro p hp q hq
    rw [List.mem_singleton.1 hq]
    intro heq
    rw [heq] at hp
    exact hfresh hp
  · intro entry hentry
    rw [count_append]
    rcases List.mem_append.1 hentry with hentry | hentry
    · have hlt := h.index_lt entry hentry
      omega
    · rw [List.mem_singleton.1 hentry]
      have hone : count kind [((⟨kind, count kind bound⟩ : Parameter), value)] = 1 := by
        simp [count]
      dsimp only
      omega

/-! ## Every step appends -/

def Grows {α : Type} (step : Compile α) : Prop :=
  ∀ bound a after, step.run bound = .ok (a, after) →
    bound <+: after ∧ (Numbered bound → Numbered after)

theorem stepwise_grows : Stepwise fun _ step _ => Grows step where
  of_pure := by
    intro α a bound b after h
    obtain ⟨_, rfl⟩ := run_pure_eq_ok_iff.1 h
    exact ⟨List.prefix_refl _, id⟩
  of_throw := by
    intro α error _ bound a after h
    cases h
  bind := by
    intro α β first _ next _ hfirst hnext bound b after h
    obtain ⟨a, middle, ha, hb⟩ := run_bind_eq_ok_iff.1 h
    obtain ⟨hgrown, hnumbered⟩ := hfirst bound a middle ha
    obtain ⟨hgrown', hnumbered'⟩ := hnext a middle b after hb
    exact ⟨hgrown.trans hgrown', fun h => hnumbered' (hnumbered h)⟩
  of_bind := by
    intro kind value _ bound p after h
    obtain ⟨rfl, rfl⟩ := Prod.mk.inj (Except.ok.inj h)
    exact ⟨List.prefix_append _ _, fun h => numbered_append h kind value⟩

/-! ## The values that are sent -/

theorem Parameter.key_injective {p q : Parameter} (h : p.key = q.key) : p = q := by
  obtain ⟨kind, index⟩ := p
  obtain ⟨kind', index'⟩ := q
  have hchars := congrArg String.toList h
  have hindex : kind = kind' → index = index' := by
    rintro rfl
    rw [toList_key, toList_key] at hchars
    have hword := List.append_cancel_left (List.append_cancel_left hchars)
    have hdigits : toString index = toString index' :=
      String.toList_inj.1 (List.cons.inj hword).2
    exact Nat.repr_injective hdigits
  have hkind : kind = kind' := by
    rw [toList_key, toList_key] at hchars
    revert hchars
    cases kind <;> cases kind' <;>
      simp [Parameter.word, ParameterKind.stem, ParameterKind.namesCollection]
  rw [hkind, hindex hkind]

theorem get?_sent {bound : Bound} (h : Numbered bound) {p : Parameter} {value : Json}
    (hmem : (p, value) ∈ bound) : Assoc.get? p.key (sent bound) = some value := by
  have hkeys : (bound.map fun entry => (entry.1.key, entry.2)).map Prod.fst
      = (bound.map Prod.fst).map Parameter.key := by
    rw [List.map_map, List.map_map]
    rfl
  have hnodup : ((bound.map fun entry => (entry.1.key, entry.2)).map Prod.fst).Nodup := by
    rw [hkeys]
    exact h.nodup.map fun _ _ => Parameter.key_injective
  rw [sent, Assoc.get?_ofList hnodup]
  apply Assoc.get?_eq_some_of_mem hnodup
  exact List.mem_map.2 ⟨(p, value), hmem, rfl⟩

end DocGraph.Aql
