import DocGraph.Proofs.World.Sound
/-!
# The entities of a schema

An entity of a schema is made or read, and then changed, stored, removed and read again.  Whatever
is done to it, no field that was added to it has the name of a reserved attribute.
-/

namespace DocGraph.Entity

variable [CustomCodecs]

/-- The entities that a program can come to hold of a schema. -/
inductive Reached (schema : Schema) : Entity → Prop where
  | new (moment : Moment) : Reached schema (Entity.new schema moment)
  | load {members : Json.Members} {entity : Drawn Entity} (h : schema.load members = .ok entity)
      (moment : Moment) : Reached schema (entity moment)
  | change {entity : Entity} (h : Reached schema entity) (mutation : Mutation) :
      Reached schema (mutation.apply entity)
  /-- It was stored; or it was read again, which brings no identity besides. -/
  | markPersisted {entity : Entity} (h : Reached schema entity) (identity : Identity) :
      Reached schema (entity.markPersisted identity)
  | markDeleted {entity : Entity} (h : Reached schema entity) :
      Reached schema entity.markDeleted

theorem Reached.hasPlainExtras {schema : Schema} (hkind : schema.kind ≠ .embedded)
    {entity : Entity} (h : Reached schema entity) : entity.HasPlainExtras := by
  induction h with
  | new moment =>
      intro name hname
      simp [Entity.new, Record.new] at hname
  | load hload moment => exact Schema.hasPlainExtras_of_load hkind hload moment
  | change _ mutation ih => exact (mutation.edited_apply _).extras ih
  | markPersisted _ _ ih => exact ih
  | markDeleted _ ih => exact ih

end DocGraph.Entity
