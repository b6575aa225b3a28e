import DocGraph.Drawn
import Mathlib.Data.List.Forall2
/-!
# Drawn lists

What is made of each item at a moment of its own.
-/

namespace DocGraph.Drawn

variable {α β : Type}

@[simp] theorem length_all (items : List (Drawn α)) (moment : Moment) :
    (all items moment).length = items.length := by
  induction items generalizing moment with
  | nil => rfl
  | cons item items ih => simp [all, ih]

theorem exists_of_mem_all {items : List (Drawn α)} {moment : Moment} {made : α}
    (h : made ∈ all items moment) : ∃ item ∈ items, ∃ within, made = item within := by
  induction items generalizing moment with
  | nil => simp [all] at h
  | cons item items ih =>
      rcases List.mem_cons.1 h with rfl | h
      · exact ⟨item, List.mem_cons_self, _, rfl⟩
      · obtain ⟨other, hmem, within, rfl⟩ := ih h
        exact ⟨other, List.mem_cons_of_mem _ hmem, within, rfl⟩

theorem exists_getElem?_all {items : List (Drawn α)} {position : Nat} {item : Drawn α}
    (h : items[position]? = some item) (moment : Moment) :
    ∃ within, (all items moment)[position]? = some (item within) := by
  induction items generalizing position moment with
  | nil => simp at h
  | cons head items ih =>
      cases position with
      | zero =>
          obtain rfl := Option.some.inj h
          exact ⟨_, rfl⟩
      | succ position => exact ih h moment.later

theorem forall₂_all_map {related : α → β → Prop} {f : α → Drawn β} {items : List α}
    (h : ∀ item ∈ items, ∀ moment, related item (f item moment)) (moment : Moment) :
    List.Forall₂ related items (all (items.map f) moment) := by
  induction items generalizing moment with
  | nil => exact .nil
  | cons item items ih =>
      obtain ⟨hitem, hitems⟩ := List.forall_mem_cons.1 h
      exact .cons (hitem moment.first) (ih hitems moment.later)

theorem all_map_const (f : α → β) (items : List α) (moment : Moment) :
    all (items.map fun item _ => f item) moment = items.map f := by
  induction items generalizing moment with
  | nil => rfl
  | cons item items ih => simp [all, ih]

end DocGraph.Drawn
