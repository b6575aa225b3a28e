import DocGraph.Proofs.Entity.Identity
/-!
# Entities under the identity of a stored document

What an entity writes beside its identity does not depend on that identity.  So the document that
the server makes of a dumped entity, by putting its own identity in place of the entity's, is the
dump of the entity that has taken over this identity.
-/

namespace DocGraph

open Outcome

namespace Schema

/-! ## Other identities -/

def identityAttributes : List String := ["_id", "_key", "_rev"]

theorem identityAttributes_subset {name : String} (h : name ∈ identityAttributes) :
    name ∈ reservedAttributes := by
  revert h
  simp only [identityAttributes, reservedAttributes, List.mem_cons, List.not_mem_nil, or_false]
  rintro (rfl | rfl | rfl) <;> simp

theorem get?_members_of_not_mem (identity : Identity) {name : String}
    (h : name ∉ identityAttributes) : Assoc.get? name identity.members = none := by
  simp only [identityAttributes, List.mem_cons, List.not_mem_nil, or_false, not_or] at h
  simp [Identity.get?_members, h]

theorem dumpEndpoints_eq_insertAll {schema : Schema} {entity : Entity}
    {members ends : Json.Members} (h : schema.dumpEndpoints entity members = .ok ends) :
    ∃ news, (∀ key ∈ news.map Prod.fst, key ∉ identityAttributes) ∧
      ∀ (other : Entity) (others : Json.Members), other.source = entity.source →
        other.target = entity.target →
        schema.dumpEndpoints other others = .ok (Assoc.insertAll news others) := by
  unfold dumpEndpoints at h
  cases hedge : schema.isEdge with
  | false => exact ⟨[], by simp, fun _ _ _ _ => by simp [dumpEndpoints, hedge, Assoc.insertAll]⟩
  | true =>
      simp only [hedge, if_true] at h
      obtain ⟨source, hsource, h⟩ := bind_eq_ok_iff.1 h
      obtain ⟨target, htarget, _⟩ := bind_eq_ok_iff.1 h
      refine ⟨[("_from", .string source), ("_to", .string target)], ?_, ?_⟩
      · simp [identityAttributes]
      · intro other others hotherSource hotherTarget
        simp [dumpEndpoints, hedge, hotherSource, hotherTarget, hsource, htarget,
          Assoc.insertAll]

variable [CustomCodecs]

theorem dump_markPersisted {schema : Schema} (hbuilt : schema.build = .ok schema)
    {entity : Entity} (hextras : entity.HasPlainExtras) {members : Json.Members}
    (h : schema.dump entity = .ok members) (identity : Identity) :
    ∃ document, schema.dump (entity.markPersisted identity) = .ok document ∧
      Assoc.Sorted members ∧ Assoc.Sorted document ∧
      ∀ name, Assoc.get? name document =
        if name ∈ identityAttributes then
          Assoc.get? name (entity.markPersisted identity).identity.members
        else Assoc.get? name members := by
  obtain ⟨ends, hends, hrecord⟩ := dump_cases h
  obtain ⟨handles, hhandles, hwrites⟩ := dumpEndpoints_eq_insertAll hends
  obtain ⟨news, hnews, hwritten⟩ := dumpRecord_eq_insertAll hrecord
  let after := entity.markPersisted identity
  have hendsEq : ends = Assoc.insertAll handles entity.identity.members :=
    Except.ok.inj (hends.symm.trans (hwrites entity _ rfl rfl))
  have hmembers : members = Assoc.insertAll news ends :=
    Except.ok.inj (hrecord.symm.trans (hwritten ends))
  have hreserved : ∀ key ∈ news.map Prod.fst, key ∉ reservedAttributes := fun key hkey =>
    (hnews key hkey).elim (not_reserved_of_build hbuilt) (hextras key)
  refine ⟨Assoc.insertAll news (Assoc.insertAll handles after.identity.members), ?_, ?_, ?_, ?_⟩
  · have hlive : after.liveRecord = .ok entity.record := by
      simp [after, Entity.markPersisted, Entity.liveRecord, Entity.ensureLive]
    simp only [dump]
    rw [hlive, hwrites (entity.markPersisted identity) _ rfl rfl]
    exact hwritten _
  · rw [hmembers, hendsEq]
    exact Assoc.sorted_insertAll (Assoc.sorted_insertAll entity.identity.sorted_members)
  · exact Assoc.sorted_insertAll (Assoc.sorted_insertAll after.identity.sorted_members)
  · intro name
    by_cases hname : name ∈ identityAttributes
    · rw [if_pos hname,
        Assoc.get?_insertAll_of_not_mem fun hmem =>
          hreserved name hmem (identityAttributes_subset hname),
        Assoc.get?_insertAll_of_not_mem fun hmem => hhandles name hmem hname]
    · rw [if_neg hname, hmembers, hendsEq]
      refine Assoc.get?_insertAll_congr _ (Assoc.get?_insertAll_congr _ ?_)
      rw [get?_members_of_not_mem _ hname, get?_members_of_not_mem _ hname]

end Schema

namespace StoredDatabase

/-- The document that the server makes of a dumped entity is the dump of the entity with the
identity of this document. -/
theorem dump_eq_withIdentity [CustomCodecs] {schema : Schema} (hbuilt : schema.build = .ok schema)
    {entity : Entity} (hextras : entity.HasPlainExtras) {members body : Json.Members}
    (h : schema.dump entity = .ok members)
    (hsorted : Assoc.Sorted members → Assoc.Sorted body)
    (hbody : ∀ other ∉ Schema.identityAttributes,
      Assoc.get? other body = Assoc.get? other members) (name key rev : String) :
    schema.dump (entity.markPersisted ⟨some key, some (documentHandle name key), some rev⟩) =
      .ok (withIdentity body name key rev) := by
  obtain ⟨document, hdocument, hmembers, hdocumentSorted, hget⟩ :=
    Schema.dump_markPersisted hbuilt hextras h
      ⟨some key, some (documentHandle name key), some rev⟩
  rw [hdocument]
  refine congrArg Except.ok (Assoc.eq_of_get?_eq hdocumentSorted
    (Assoc.sorted_insert (Assoc.sorted_insert (Assoc.sorted_insert (hsorted hmembers))))
    fun other => ?_)
  rw [hget other]
  by_cases hother : other ∈ Schema.identityAttributes
  · rw [if_pos hother, Identity.get?_members]
    simp only [Schema.identityAttributes, List.mem_cons, List.not_mem_nil, or_false]
      at hother
    rcases hother with rfl | rfl | rfl
    · exact (get?_id_withIdentity body name key rev).symm
    · exact (get?_key_withIdentity body name key rev).symm
    · exact (get?_rev_withIdentity body name key rev).symm
  · rw [if_neg hother, get?_withIdentity_of_not_mem body name key rev hother,
      hbody other hother]

end StoredDatabase

end DocGraph
