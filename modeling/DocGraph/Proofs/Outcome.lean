/-!
# Computations that may fail

A computation of several steps succeeds exactly when every step does.
-/

namespace DocGraph.Outcome

variable {ε α β : Type}

@[simp] theorem ok_bind (a : α) (next : α → Except ε β) :
    (Except.ok a >>= next) = next a := rfl

@[simp] theorem error_bind (error : ε) (next : α → Except ε β) :
    (Except.error error >>= next) = Except.error error := rfl

@[simp] theorem pure_eq_ok (a : α) : (pure a : Except ε α) = Except.ok a := rfl

@[simp] theorem throw_eq_error (error : ε) :
    (throw error : Except ε α) = Except.error error := rfl

theorem bind_eq_ok_iff {first : Except ε α} {next : α → Except ε β} {b : β} :
    (first >>= next) = Except.ok b ↔ ∃ a, first = Except.ok a ∧ next a = Except.ok b := by
  cases first with
  | error error => simp
  | ok a => simp

theorem bind_eq_error_iff {first : Except ε α} {next : α → Except ε β} {error : ε} :
    (first >>= next) = Except.error error ↔
      first = Except.error error ∨ ∃ a, first = Except.ok a ∧ next a = Except.error error := by
  cases first with
  | error error => simp
  | ok a => simp

theorem exists_of_isOk {result : Except ε α} (h : result.isOk) :
    ∃ a, result = Except.ok a := by
  cases result with
  | ok a => exact ⟨a, rfl⟩
  | error _ => simp [Except.isOk, Except.toBool] at h

@[simp] theorem isOk_ok (a : α) : (Except.ok a : Except ε α).isOk = true := rfl

@[simp] theorem isOk_error (error : ε) : (Except.error error : Except ε α).isOk = false := rfl

theorem isOk_bind_eq_false_iff {first : Except ε α} {next : α → Except ε β} {reason : Prop}
    (h : ∀ a, (next a).isOk = false ↔ reason) :
    (first >>= next).isOk = false ↔ first.isOk = false ∨ reason := by
  cases first with
  | error error => simp
  | ok a => simp [h]

theorem isOk_map_eq_false_iff {first : Except ε α} {f : α → β} :
    (first >>= fun a => Except.ok (f a)).isOk = false ↔ first.isOk = false := by
  cases first <;> simp

theorem mapM_cons_eq_ok_iff {f : α → Except ε β} {item : α} {items : List α} {results : List β} :
    (item :: items).mapM f = Except.ok results ↔
      ∃ b bs, f item = Except.ok b ∧ items.mapM f = Except.ok bs ∧ results = b :: bs := by
  rw [List.mapM_cons]
  constructor
  · intro h
    obtain ⟨b, hb, h⟩ := bind_eq_ok_iff.1 h
    obtain ⟨bs, hbs, h⟩ := bind_eq_ok_iff.1 h
    exact ⟨b, bs, hb, hbs, (Except.ok.inj h).symm⟩
  · rintro ⟨b, bs, hb, hbs, rfl⟩
    simp [hb, hbs]

theorem exists_item_of_mapM {f : α → Except ε β} {items : List α} {results : List β}
    (h : items.mapM f = Except.ok results) :
    ∀ b ∈ results, ∃ item ∈ items, f item = Except.ok b := by
  induction items generalizing results with
  | nil =>
      obtain rfl := Except.ok.inj h
      simp
  | cons item items ih =>
      obtain ⟨b, bs, hb, hbs, rfl⟩ := mapM_cons_eq_ok_iff.1 h
      refine List.forall_mem_cons.2 ⟨⟨item, List.mem_cons_self, hb⟩, fun other hmem => ?_⟩
      obtain ⟨item, hitem, hother⟩ := ih hbs other hmem
      exact ⟨item, List.mem_cons_of_mem _ hitem, hother⟩

theorem exists_result_of_mapM {f : α → Except ε β} {items : List α} {results : List β}
    (h : items.mapM f = Except.ok results) :
    ∀ item ∈ items, ∃ b ∈ results, f item = Except.ok b := by
  induction items generalizing results with
  | nil => simp
  | cons item items ih =>
      obtain ⟨b, bs, hb, hbs, rfl⟩ := mapM_cons_eq_ok_iff.1 h
      refine List.forall_mem_cons.2 ⟨⟨b, List.mem_cons_self, hb⟩, fun other hmem => ?_⟩
      obtain ⟨b, hmem, hother⟩ := ih hbs other hmem
      exact ⟨b, List.mem_cons_of_mem _ hmem, hother⟩

theorem exists_mapM_eq_ok {f : α → Except ε β} {items : List α}
    (h : ∀ item ∈ items, ∃ b, f item = Except.ok b) :
    ∃ results, items.mapM f = Except.ok results := by
  induction items with
  | nil => exact ⟨[], rfl⟩
  | cons item items ih =>
      obtain ⟨⟨b, hb⟩, hitems⟩ := List.forall_mem_cons.1 h
      obtain ⟨bs, hbs⟩ := ih hitems
      exact ⟨b :: bs, mapM_cons_eq_ok_iff.2 ⟨b, bs, hb, hbs, rfl⟩⟩

theorem map_eq_of_mapM {f : α → Except ε β} {items : List α} {results : List β}
    (h : items.mapM f = Except.ok results) : items.map f = results.map Except.ok := by
  induction items generalizing results with
  | nil =>
      obtain rfl := Except.ok.inj h
      rfl
  | cons item items ih =>
      obtain ⟨b, bs, hb, hbs, rfl⟩ := mapM_cons_eq_ok_iff.1 h
      rw [List.map_cons, List.map_cons, hb, ih hbs]

theorem eq_map_of_mapM {f : α → Except ε β} {g : α → β} {items : List α} {results : List β}
    (hfg : ∀ item b, f item = Except.ok b → b = g item)
    (h : items.mapM f = Except.ok results) : results = items.map g := by
  induction items generalizing results with
  | nil => exact (Except.ok.inj h).symm
  | cons item items ih =>
      obtain ⟨b, bs, hb, hbs, rfl⟩ := mapM_cons_eq_ok_iff.1 h
      rw [List.map_cons, hfg item b hb, ih hbs]

theorem mapM_eq_ok_of_forall {f g : α → Except ε β} {items : List α} {results : List β}
    (hfg : ∀ item b, f item = Except.ok b → g item = Except.ok b)
    (h : items.mapM f = Except.ok results) : items.mapM g = Except.ok results := by
  induction items generalizing results with
  | nil => exact h
  | cons item items ih =>
      obtain ⟨b, bs, hb, hbs, rfl⟩ := mapM_cons_eq_ok_iff.1 h
      exact mapM_cons_eq_ok_iff.2 ⟨b, bs, hfg item b hb, ih hbs, rfl⟩

end DocGraph.Outcome
