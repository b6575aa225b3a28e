import DocGraph.Proofs.Entity.ReadBack
import DocGraph.Proofs.Schema.Writable
/-!
# When an entity cannot be written

An entity that is not deleted is written, unless its record is not, or the end of an edge does not
name a document.
-/

namespace DocGraph

open Outcome

/-! ## Ends of edges -/

theorem isDocumentHandle_iff {handle : String} :
    isDocumentHandle handle = true ↔ ∃ collection key, collection ≠ "" ∧ key ≠ "" ∧
      '/' ∉ collection.toList ∧ handle = documentHandle collection key := by
  have hparts : ∀ collection key : String, handle = documentHandle collection key ↔
      handle.toList = collection.toList ++ '/' :: key.toList := fun collection key => by
    rw [← String.toList_inj, documentHandle]
    simp
  unfold isDocumentHandle
  constructor
  · intro h
    split at h
    · rename_i collection key hcut
      obtain ⟨hlist, hfirst⟩ := Text.cut?_eq_some_iff.1 hcut
      have hnonempty : collection ≠ "" ∧ key ≠ "" := by simpa using h
      exact ⟨collection, key, hnonempty.1, hnonempty.2, hfirst, (hparts _ _).2 hlist⟩
    · simp at h
  · rintro ⟨collection, key, hcollection, hkey, hfirst, hhandle⟩
    rw [Text.cut?_eq_some_iff.2 ⟨(hparts _ _).1 hhandle, hfirst⟩]
    simp [hcollection, hkey]

/-- An end of an edge that cannot be written: it is not set, it has no handle yet, or the handle is
none of a document. -/
inductive Endpoint.Unwritable : Option Endpoint → Prop
  | unset : Endpoint.Unwritable none
  | unresolved (collection : String) : Endpoint.Unwritable (some (.unresolved collection))
  | id {handle : String} (h : ¬ ∃ collection key, collection ≠ "" ∧ key ≠ "" ∧
      '/' ∉ collection.toList ∧ handle = documentHandle collection key) :
    Endpoint.Unwritable (some (.id handle))

namespace Schema

theorem isOk_resolveEndpoint_eq_false_iff {side : String} {endpoint : Option Endpoint} :
    (resolveEndpoint side endpoint).isOk = false ↔ Endpoint.Unwritable endpoint := by
  match endpoint with
  | none => exact iff_of_true rfl .unset
  | some (.unresolved collection) => exact iff_of_true rfl (.unresolved collection)
  | some (.id handle) =>
      rw [resolveEndpoint]
      split
      · rename_i hhandle
        refine iff_of_false (by simp) ?_
        rintro (_ | _ | h)
        exact h (isDocumentHandle_iff.1 hhandle)
      · rename_i hhandle
        exact iff_of_true (isOk_error _) (.id fun h => hhandle (isDocumentHandle_iff.2 h))

theorem isOk_dumpEndpoints_eq_false_iff {schema : Schema} {entity : Entity}
    {members : Json.Members} :
    (schema.dumpEndpoints entity members).isOk = false ↔ schema.isEdge = true ∧
      (Endpoint.Unwritable entity.source ∨ Endpoint.Unwritable entity.target) := by
  unfold dumpEndpoints
  split
  · rename_i hedge
    refine (isOk_bind_eq_false_iff fun _ => isOk_map_eq_false_iff.trans
      isOk_resolveEndpoint_eq_false_iff).trans ?_
    rw [isOk_resolveEndpoint_eq_false_iff, and_iff_right hedge]
  · rename_i hedge
    exact iff_of_false (by simp) fun h => hedge h.1

section

variable [CustomCodecs]

/-- An entity is not written exactly when it is deleted, an end of an edge names no document, or its
record cannot be written. -/
theorem isOk_dump_eq_false_iff (entity : Entity) :
    (entity.schema.dump entity).isOk = false ↔ entity.state = .deleted ∨
      (entity.schema.isEdge = true ∧
        (Endpoint.Unwritable entity.source ∨ Endpoint.Unwritable entity.target)) ∨
      entity.record.Unwritable Codec.Rejects := by
  by_cases hdeleted : entity.state = .deleted
  · rw [dump, Entity.liveRecord, Entity.ensureLive, if_pos hdeleted]
    exact iff_of_true rfl (.inl hdeleted)
  · have hlive : entity.liveRecord = .ok entity.record := by
      rw [Entity.liveRecord, Entity.ensureLive, if_neg hdeleted]
      rfl
    rw [dump, hlive, ok_bind, or_iff_right hdeleted, ← isOk_dumpEndpoints_eq_false_iff]
    exact isOk_bind_eq_false_iff fun _ => isOk_dumpRecord_eq_false_iff

/-- Codecs have a part in the reasons for which an entity is not written only where a record with a
codec is held. -/
theorem dump_fails_iff (entity : Entity) :
    ((entity.schema.dump entity).isOk = false ↔ entity.state = .deleted ∨
      (entity.schema.isEdge = true ∧
        (Endpoint.Unwritable entity.source ∨ Endpoint.Unwritable entity.target)) ∨
      entity.record.Unwritable Codec.Rejects) ∧
    (¬ entity.record.HoldsCodec →
      (entity.record.Unwritable Codec.Rejects ↔
        entity.record.Unwritable fun _ _ _ => False)) := by
  refine ⟨isOk_dump_eq_false_iff entity, fun hcodec => ⟨fun h => ?_, fun h => ?_⟩⟩
  · exact (h.change _).resolve_right hcodec
  · exact (h.change _).resolve_right hcodec

end

section

attribute [local instance] CustomCodecs.none

def tideSchema : Schema :=
  ⟨"tides", .document, [⟨"heights", .listOf (.primitive .float), true, none, false, none⟩],
    false, []⟩

def lowTide : Entity :=
  ⟨⟨tideSchema, [.held (.list [.float ⟨0x3ff0000000000000⟩, .float ⟨0x7ff8000000000000⟩])], []⟩,
    Identity.empty, none, none, .unbound⟩

theorem dump_fails_iff_tides :
    ¬ lowTide.record.HoldsCodec ∧ lowTide.record.Unwritable (fun _ _ _ => False) ∧
      (tideSchema.dump lowTide).isOk = false := by
  have hcodec : ¬ lowTide.record.HoldsCodec := by
    rintro (⟨hmem, h⟩ | ⟨hmem, h⟩ | ⟨hmem, h⟩)
    · simp_all [lowTide, tideSchema]
    · obtain rfl := Slot.held.inj (List.mem_singleton.1 hmem)
      rcases h with ⟨hitem, h⟩ | _
      simp only [List.mem_cons, List.not_mem_nil, or_false] at hitem
      rcases hitem with rfl | rfl <;> cases h
    · simp [lowTide] at hmem
  have hunwritable : lowTide.record.Unwritable (fun _ _ _ => False) :=
    .slot (List.mem_singleton.2 rfl) (.held rfl rfl
      (.list (List.mem_cons_of_mem _ List.mem_cons_self) (.float rfl)))
  obtain ⟨hfails, hsame⟩ := dump_fails_iff lowTide
  exact ⟨hcodec, hunwritable, hfails.2 (.inr (.inr ((hsame hcodec).2 hunwritable)))⟩

def boxSchema : Schema := ⟨"boxes", .document, [], true, []⟩

/-- The type asks for an integer, and the codec for an instant. -/
def stampSchema : Schema :=
  ⟨"stamp", .embedded, [⟨"at", .primitive .int, false, none, false, some .epochMillis⟩], false, []⟩

def stamp : Record := ⟨stampSchema, [.held (.int 5)], []⟩

def stampedBox : Entity := (Mutation.set "s" (.object stamp)).apply (Entity.new boxSchema .declared)

/-- A record with a codec can be held under a schema without any, and keep it from being written. -/
theorem codec_from_elsewhere :
    boxSchema.build.isOk = true ∧ boxSchema.hasCodec = false ∧
      Entity.Made boxSchema stampedBox ∧ stampedBox.schema = boxSchema ∧
      (boxSchema.dump stampedBox).isOk = false ∧
      ¬ (stampedBox.state = .deleted ∨ (boxSchema.isEdge = true ∧
        (Endpoint.Unwritable stampedBox.source ∨ Endpoint.Unwritable stampedBox.target)) ∨
        stampedBox.record.Unwritable fun _ _ _ => False) := by
  have hstamp : stamp.Made := by
    have hmade : stampSchema.Made := by
      refine made_of_isOk (by decide +kernel) ?_ ?_
      · simp [stampSchema, FieldType.Made.primitive]
      · simp [stampSchema, FieldSpec.defaultValue?]
    have hset : (Record.new stampSchema .declared).set "at" (.int 5) = .ok stamp := rfl
    exact .set (.new hmade .declared) (.int 5) hset
  have hmade : Entity.Made boxSchema stampedBox := by
    refine (Entity.Made.new .declared).change _ fun name value heq => ?_
    obtain ⟨_, rfl⟩ := Mutation.set.inj heq
    exact .object hstamp
  refine ⟨by decide +kernel, by decide +kernel, hmade, rfl, by decide +kernel, ?_⟩
  rintro (h | ⟨h, _⟩ | h)
  · exact absurd h (by decide +kernel)
  · exact absurd h (by decide +kernel)
  · have hrecord : stampedBox.record = ⟨boxSchema, [], [("s", .object stamp)]⟩ := rfl
    rw [hrecord] at h
    rcases h with ⟨hmem, _⟩ | ⟨hmem, h⟩
    · simp at hmem
    · obtain ⟨rfl, rfl⟩ := Prod.mk.inj (List.mem_singleton.1 hmem)
      rcases h with _ | _ | ⟨⟨hmem, h⟩ | ⟨hmem, _⟩⟩
      · obtain ⟨rfl, rfl⟩ := Prod.mk.inj (List.mem_singleton.1 hmem)
        rcases h with _ | ⟨_, hcodec, _⟩ | ⟨_, _, h⟩
        · cases hcodec
        · exact h
      · simp [stamp] at hmem

end

end Schema

end DocGraph
