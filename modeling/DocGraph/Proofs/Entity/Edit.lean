import DocGraph.Entity.Basic
import DocGraph.Proofs.Outcome
/-!
# What edits leave alone

An edit that fails changes nothing.  One that succeeds changes the contents of an entity, but never
the identity of a document that is stored, and adds no field that is named like a reserved
attribute.
-/

namespace DocGraph

/-! ## Fields that were added -/

namespace Record

theorem mem_putExtra {name key : String} {value : Value} {extras : List (String × Value)}
    (h : key ∈ (putExtra name value extras).map Prod.fst) :
    key = name ∨ key ∈ extras.map Prod.fst := by
  induction extras with
  | nil => simpa [putExtra] using h
  | cons extra extras ih =>
      obtain ⟨other, old⟩ := extra
      unfold putExtra at h
      split at h
      · exact Or.inr h
      · rcases List.mem_cons.1 h with h | h
        · exact Or.inr (h ▸ List.mem_cons_self)
        · rcases ih h with h | h
          · exact Or.inl h
          · exact Or.inr (List.mem_cons_of_mem _ h)

theorem nodup_putExtra {name : String} {value : Value} {extras : List (String × Value)}
    (h : (extras.map Prod.fst).Nodup) :
    ((putExtra name value extras).map Prod.fst).Nodup := by
  induction extras with
  | nil => simp [putExtra]
  | cons extra extras ih =>
      obtain ⟨key, old⟩ := extra
      obtain ⟨hhead, hrest⟩ := List.nodup_cons.1 h
      unfold putExtra
      split
      · exact h
      · rename_i hne
        refine List.nodup_cons.2 ⟨fun hmem => ?_, ih hrest⟩
        rcases mem_putExtra hmem with heq | hmem
        · exact hne heq
        · exact hhead hmem

theorem dropExtra_sublist (name : String) (extras : List (String × Value)) :
    (dropExtra name extras).Sublist extras := by
  induction extras with
  | nil => exact .slnil
  | cons extra extras ih =>
      obtain ⟨key, old⟩ := extra
      unfold dropExtra
      split
      · exact List.sublist_cons_self _ _
      · exact ih.cons_cons _

theorem mem_dropExtra {name key : String} {extras : List (String × Value)}
    (h : key ∈ (dropExtra name extras).map Prod.fst) : key ∈ extras.map Prod.fst :=
  ((dropExtra_sublist name extras).map Prod.fst).subset h

theorem set_cases {record after : Record} {name : String} {value : Value}
    (h : record.set name value = .ok after) :
    (∃ position field accepted, record.schema.position? name = some position ∧
      record.schema.fields[position]? = some field ∧ field.accept value = .ok accepted ∧
      after = { record with slots := record.slots.set position (.held accepted) }) ∨
    (record.schema.position? name = none ∧ record.schema.isOpen = true ∧
      name ∉ Schema.reservedAttributes ∧
      after = { record with extras := putExtra name value record.extras }) := by
  unfold set at h
  split at h
  · rename_i position hposition
    split at h
    · rename_i field hfield
      obtain ⟨accepted, haccepted, h⟩ := Outcome.bind_eq_ok_iff.1 h
      exact .inl ⟨position, field, accepted, hposition, hfield, haccepted, (Except.ok.inj h).symm⟩
    · simp [unknown] at h
  · rename_i hposition
    split at h
    · rename_i hopen
      exact .inr ⟨hposition, hopen.1, hopen.2, (Except.ok.inj h).symm⟩
    · simp [unknown] at h

theorem remove_cases {record after : Record} {name : String} {previous : Option Value}
    (h : record.remove name = .ok (previous, after)) :
    (∃ position, record.schema.position? name = some position ∧
      previous = record.slotValue? position ∧
      after = { record with slots := record.slots.set position .absent }) ∨
    (record.schema.position? name = none ∧ record.schema.isOpen = true ∧
      previous = record.extras.lookup name ∧
      after = { record with extras := dropExtra name record.extras }) := by
  unfold remove at h
  split at h
  · rename_i position hposition
    obtain ⟨rfl, rfl⟩ := Prod.mk.inj (Except.ok.inj h)
    exact .inl ⟨position, hposition, rfl, rfl⟩
  · rename_i hposition
    split at h
    · rename_i hopen
      obtain ⟨rfl, rfl⟩ := Prod.mk.inj (Except.ok.inj h)
      exact .inr ⟨hposition, hopen, rfl, rfl⟩
    · simp [unknown] at h

theorem schema_of_set {record after : Record} {name : String} {value : Value}
    (h : record.set name value = .ok after) : after.schema = record.schema := by
  obtain ⟨_, _, _, _, _, _, rfl⟩ | ⟨_, _, _, rfl⟩ := set_cases h <;> rfl

theorem schema_of_remove {record after : Record} {name : String} {previous : Option Value}
    (h : record.remove name = .ok (previous, after)) : after.schema = record.schema := by
  obtain ⟨_, _, _, rfl⟩ | ⟨_, _, _, rfl⟩ := remove_cases h <;> rfl

theorem mem_extras_of_set {record written : Record} {name key : String} {value : Value}
    (h : record.set name value = .ok written) (hkey : key ∈ written.extras.map Prod.fst) :
    key ∉ Schema.reservedAttributes ∨ key ∈ record.extras.map Prod.fst := by
  obtain ⟨_, _, _, _, _, _, rfl⟩ | ⟨_, _, hplain, rfl⟩ := set_cases h
  · exact Or.inr hkey
  · rcases mem_putExtra hkey with rfl | hkey
    · exact Or.inl hplain
    · exact Or.inr hkey

theorem mem_extras_of_remove {record written : Record} {name key : String}
    {previous : Option Value} (h : record.remove name = .ok (previous, written))
    (hkey : key ∈ written.extras.map Prod.fst) : key ∈ record.extras.map Prod.fst := by
  obtain ⟨_, _, _, rfl⟩ | ⟨_, _, _, rfl⟩ := remove_cases h
  · exact hkey
  · exact mem_dropExtra hkey

end Record

namespace Entity

@[simp] theorem record_touch (entity : Entity) : entity.touch.record = entity.record := by
  unfold touch
  split <;> rfl

/-! ## Edits step by step -/

namespace Edit

variable {α β : Type}

theorem perform_bind (first : Edit α) (next : α → Edit β) (entity : Entity) :
    perform (first >>= next) entity =
      match perform first entity with
      | (.ok a, entity) => perform (next a) entity
      | (.error error, entity) => (.error error, entity) := by
  show (match perform first entity with
    | (result, entity) => (ExceptT.bindCont next result : StateM Entity _) entity) = _
  rcases perform first entity with ⟨result, after⟩
  cases result <;> rfl

theorem perform_get_bind (next : Entity → Edit β) (entity : Entity) :
    perform (MonadState.get >>= next) entity = perform (next entity) entity := rfl

theorem perform_lift_bind (result : Except Error α) (next : α → Edit β) (entity : Entity) :
    perform (liftM result >>= next) entity =
      match result with
      | .ok a => perform (next a) entity
      | .error error => (.error error, entity) := by
  cases result <;> rfl

theorem perform_set (name : String) (value : Value) (entity : Entity) :
    perform (.set name value) entity =
      match entity.ensureLive, entity.record.set name value with
      | .ok _, .ok record => (.ok (), { entity with record }.touch)
      | .ok _, .error error => (.error error, entity)
      | .error error, _ => (.error error, entity) := by
  unfold set
  rw [perform_get_bind, perform_lift_bind]
  cases entity.ensureLive with
  | error error => rfl
  | ok _ =>
      dsimp only
      rw [perform_lift_bind]
      cases entity.record.set name value <;> rfl

theorem perform_remove (name : String) (entity : Entity) :
    perform (.remove name) entity =
      match entity.ensureLive, entity.record.remove name with
      | .ok _, .ok (previous, record) => (.ok previous, { entity with record }.touch)
      | .ok _, .error error => (.error error, entity)
      | .error error, _ => (.error error, entity) := by
  unfold remove
  rw [perform_get_bind, perform_lift_bind]
  cases entity.ensureLive with
  | error error => rfl
  | ok _ =>
      dsimp only
      rw [perform_lift_bind]
      cases entity.record.remove name <;> rfl

theorem perform_setKey (key : String) (entity : Entity) :
    (perform (.setKey key) entity).2 =
      if entity.state = .unbound then
        { entity with identity := { entity.identity with key := some key } }
      else entity := by
  unfold setKey
  rw [perform_get_bind]
  split <;> rfl

theorem perform_setSource (endpoint : Endpoint) (entity : Entity) :
    perform (.setSource endpoint) entity =
      match entity.ensureEdge "_from" with
      | .ok _ => (.ok (), { entity with source := some endpoint }.touch)
      | .error error => (.error error, entity) := by
  unfold setSource
  rw [perform_get_bind, perform_lift_bind]
  cases entity.ensureEdge "_from" <;> rfl

theorem perform_setTarget (endpoint : Endpoint) (entity : Entity) :
    perform (.setTarget endpoint) entity =
      match entity.ensureEdge "_to" with
      | .ok _ => (.ok (), { entity with target := some endpoint }.touch)
      | .error error => (.error error, entity) := by
  unfold setTarget
  rw [perform_get_bind, perform_lift_bind]
  cases entity.ensureEdge "_to" <;> rfl

theorem perform_connect (source target : Endpoint) (entity : Entity) :
    perform (.connect source target) entity =
      match perform (.setSource source) entity with
      | (.ok _, entity) => perform (.setTarget target) entity
      | (.error error, entity) => (.error error, entity) := by
  unfold connect
  rw [perform_bind]
  rcases perform (.setSource source) entity with ⟨result, after⟩
  cases result <;> rfl

end Edit

/-! ## Stored identities -/

/-- None of the fields that were added to an entity is named like a reserved attribute. -/
def HasPlainExtras (entity : Entity) : Prop :=
  ∀ name ∈ entity.record.extras.map Prod.fst, name ∉ Schema.reservedAttributes

/-- An entity whose document is stored, as far as it knows. -/
def IsLive (entity : Entity) : Prop :=
  entity.state = .persisted ∨ entity.state = .stale

/-- A change of an entity that leaves the identity of a stored document alone. -/
structure Edited (before after : Entity) : Prop where
  extras : before.HasPlainExtras → after.HasPlainExtras
  live : after.IsLive → before.IsLive ∧ after.identity = before.identity

theorem Edited.refl (entity : Entity) : Edited entity entity :=
  ⟨fun h => h, fun h => ⟨h, rfl⟩⟩

theorem Edited.trans {first second third : Entity} (h : Edited first second)
    (h' : Edited second third) : Edited first third := by
  refine ⟨fun hfirst => h'.extras (h.extras hfirst), fun hthird => ?_⟩
  obtain ⟨hsecond, hidentity⟩ := h'.live hthird
  obtain ⟨hfirst, hsame⟩ := h.live hsecond
  exact ⟨hfirst, hidentity.trans hsame⟩

theorem Edited.touch {before after : Entity} (h : Edited before after) :
    Edited before after.touch := by
  unfold Entity.touch
  split
  · rename_i hpersisted
    exact ⟨h.extras, fun _ => h.live (Or.inl hpersisted)⟩
  · exact h

theorem edited_set (name : String) (value : Value) (entity : Entity) :
    Edited entity (Edit.perform (.set name value) entity).2 := by
  rw [Edit.perform_set]
  split
  · rename_i record _ hset
    refine Edited.touch ⟨fun hextras key hkey => ?_, fun h => ⟨h, rfl⟩⟩
    rcases Record.mem_extras_of_set hset hkey with hplain | hkey
    · exact hplain
    · exact hextras key hkey
  · exact Edited.refl entity
  · exact Edited.refl entity

theorem edited_remove (name : String) (entity : Entity) :
    Edited entity (Edit.perform (.remove name) entity).2 := by
  rw [Edit.perform_remove]
  split
  · rename_i previous record _ hremove
    exact Edited.touch ⟨fun hextras key hkey =>
      hextras key (Record.mem_extras_of_remove hremove hkey), fun h => ⟨h, rfl⟩⟩
  · exact Edited.refl entity
  · exact Edited.refl entity

theorem edited_setKey (key : String) (entity : Entity) :
    Edited entity (Edit.perform (.setKey key) entity).2 := by
  rw [Edit.perform_setKey]
  split
  · rename_i hunbound
    refine ⟨fun h => h, fun hlive => ?_⟩
    rcases hlive with h | h
    · simp [hunbound] at h
    · simp [hunbound] at h
  · exact Edited.refl entity

theorem edited_setSource (endpoint : Endpoint) (entity : Entity) :
    Edited entity (Edit.perform (.setSource endpoint) entity).2 := by
  rw [Edit.perform_setSource]
  split
  · exact Edited.touch ⟨fun h => h, fun h => ⟨h, rfl⟩⟩
  · exact Edited.refl entity

theorem edited_setTarget (endpoint : Endpoint) (entity : Entity) :
    Edited entity (Edit.perform (.setTarget endpoint) entity).2 := by
  rw [Edit.perform_setTarget]
  split
  · exact Edited.touch ⟨fun h => h, fun h => ⟨h, rfl⟩⟩
  · exact Edited.refl entity

theorem edited_connect (source target : Endpoint) (entity : Entity) :
    Edited entity (Edit.perform (.connect source target) entity).2 := by
  have hsource := edited_setSource source entity
  rw [Edit.perform_connect]
  split
  · rename_i after heq
    rw [heq] at hsource
    exact hsource.trans (edited_setTarget target after)
  · rename_i after heq
    rw [heq] at hsource
    exact hsource

end Entity

end DocGraph
