import DocGraph.Proofs.Schema.Built
import DocGraph.Proofs.Schema.RoundTrip
/-!
# Entities come back as they were read

The identity of a document and the ends of an edge are written beside the fields of its record,
so dumping a loaded entity gives its object back, less what the schema omits.
-/

namespace DocGraph

open Outcome

/-! ## Reserved attributes -/

theorem Json.exists_of_isSome_asString? {raw : Json} (h : raw.asString?.isSome) :
    ∃ s, raw = .string s := by
  cases raw with
  | string s => exact ⟨s, rfl⟩
  | _ => simp [Json.asString?] at h

theorem get?_eq_of_identityAttribute {members : Json.Members} {name : String}
    {value : Option String} (h : identityAttribute members name = .ok value)
    (hstring : ∀ raw, Assoc.get? name members = some raw → ∃ s, raw = .string s) :
    Assoc.get? name members = value.map .string := by
  unfold identityAttribute at h
  split at h
  · rename_i hget
    obtain rfl := Except.ok.inj h
    exact hget
  · rename_i hget
    obtain ⟨s, hs⟩ := hstring _ hget
    simp at hs
  · rename_i s hget
    obtain rfl := Except.ok.inj h
    exact hget
  · simp at h

theorem get?_eq_of_requiredAttribute {members : Json.Members} {name handle : String}
    (h : requiredAttribute members name = .ok handle) :
    Assoc.get? name members = some (.string handle) := by
  obtain ⟨value, hvalue, h⟩ := bind_eq_ok_iff.1 h
  cases value with
  | none => simp at h
  | some s =>
      obtain rfl := Except.ok.inj h
      unfold identityAttribute at hvalue
      split at hvalue <;> simp_all

namespace Identity

def attributes (identity : Identity) : List (String × Option String) :=
  [("_id", identity.id), ("_key", identity.key), ("_rev", identity.rev)]

theorem sorted_attributes (identity : Identity) : Assoc.Sorted identity.attributes := by
  rw [Assoc.sorted_iff_keys]
  exact (by decide : ["_id", "_key", "_rev"].Pairwise (· < ·))

theorem members_eq (identity : Identity) :
    identity.members = Assoc.filterMap (fun _ value => value.map .string) identity.attributes := by
  simp [members, Assoc.filterMap, attributes, Function.comp_def]

theorem sorted_members (identity : Identity) : Assoc.Sorted identity.members := by
  rw [members_eq]
  exact Assoc.sorted_filterMap identity.sorted_attributes

theorem get?_members (identity : Identity) (name : String) :
    Assoc.get? name identity.members =
      if name = "_id" then identity.id.map .string
      else if name = "_key" then identity.key.map .string
      else if name = "_rev" then identity.rev.map .string
      else none := by
  rw [members_eq, Assoc.get?_filterMap identity.sorted_attributes]
  simp only [attributes, Assoc.get?, eq_comm]
  split
  · rfl
  · split
    · rfl
    · split <;> rfl

theorem get?_members_of_not_reserved {identity : Identity} {name : String}
    (h : name ∉ Schema.reservedAttributes) : Assoc.get? name identity.members = none := by
  simp only [Schema.reservedAttributes, List.mem_cons, List.not_mem_nil, or_false, not_or] at h
  simp [get?_members, h]

end Identity

namespace Schema

section

variable [CustomCodecs]

/-- All that loading an entity can come to. -/
theorem load_cases {schema : Schema} {members : Json.Members} {loaded : Drawn Entity}
    (h : schema.load members = .ok loaded) (moment : Moment) :
    ∃ record identity,
      schema.loadRecord members = .ok record ∧
      identityAttribute members "_key" = .ok identity.key ∧
      identityAttribute members "_id" = .ok identity.id ∧
      identityAttribute members "_rev" = .ok identity.rev ∧
      (loaded moment).record = record moment ∧ (loaded moment).identity = identity ∧
      (loaded moment).state = (if identity.rev.isSome then .persisted else .unbound) ∧
      (schema.isEdge = true → ∃ source target,
        requiredAttribute members "_from" = .ok source ∧
        requiredAttribute members "_to" = .ok target ∧
        (loaded moment).source = some (.id source) ∧
        (loaded moment).target = some (.id target)) := by
  obtain ⟨record, hrecord, h⟩ := bind_eq_ok_iff.1 h
  obtain ⟨key, hkey, h⟩ := bind_eq_ok_iff.1 h
  obtain ⟨id, hid, h⟩ := bind_eq_ok_iff.1 h
  obtain ⟨rev, hrev, h⟩ := bind_eq_ok_iff.1 h
  refine ⟨record, ⟨key, id, rev⟩, hrecord, hkey, hid, hrev, ?_⟩
  cases hedge : schema.isEdge with
  | true =>
      simp only [hedge, if_true] at h
      obtain ⟨source, hsource, h⟩ := bind_eq_ok_iff.1 h
      obtain ⟨target, htarget, h⟩ := bind_eq_ok_iff.1 h
      obtain rfl := Except.ok.inj h
      exact ⟨rfl, rfl, rfl, fun _ => ⟨source, target, hsource, htarget, rfl, rfl⟩⟩
  | false =>
      simp only [hedge] at h
      obtain rfl := Except.ok.inj h
      exact ⟨rfl, rfl, rfl, fun h => by simp at h⟩

end

/-- The reserved attributes of an object are written as they are read: an identity of strings,
and the ends of an edge, which nothing but an edge has. -/
structure CanonicalIdentity (schema : Schema) (members : Json.Members) : Prop where
  identity : ∀ name ∈ ["_key", "_id", "_rev"],
    ∀ raw ∈ Assoc.get? name members, raw.asString?.isSome
  ends : ∀ name ∈ ["_from", "_to"],
    if schema.isEdge then
      ∀ handle ∈ (Assoc.get? name members).bind Json.asString?, isDocumentHandle handle
    else Assoc.get? name members = none

theorem isIdentity_iff {schema : Schema} (hkind : schema.kind ≠ .embedded) {name : String} :
    schema.isIdentity name ↔ name ∈ reservedAttributes := by
  simp [isIdentity, hkind]

section

variable [CustomCodecs]

/-- What is written before the fields are the reserved attributes of the object. -/
theorem dumpEndpoints_of_load {schema : Schema} {members : Json.Members} {loaded : Drawn Entity}
    (h : schema.load members = .ok loaded) (hidentity : schema.CanonicalIdentity members)
    (moment : Moment) :
    ∃ written,
      schema.dumpEndpoints (loaded moment) (loaded moment).identity.members = .ok written ∧
      Assoc.Sorted written ∧ ∀ name, Assoc.get? name written =
        if name ∈ reservedAttributes then Assoc.get? name members else none := by
  obtain ⟨record, identity, _, hkey, hid, hrev, _, rfl, _, hends⟩ := load_cases h moment
  have hstring : ∀ name ∈ ["_key", "_id", "_rev"], ∀ raw,
      Assoc.get? name members = some raw → ∃ s, raw = .string s := fun name hname raw hraw =>
    Json.exists_of_isSome_asString? (hidentity.identity name hname raw hraw)
  have hkey := get?_eq_of_identityAttribute hkey (hstring _ (by simp))
  have hid := get?_eq_of_identityAttribute hid (hstring _ (by simp))
  have hrev := get?_eq_of_identityAttribute hrev (hstring _ (by simp))
  have hsorted := (loaded moment).identity.sorted_members
  cases hedge : schema.isEdge with
  | true =>
      obtain ⟨source, target, hsource, htarget, hentitySource, hentityTarget⟩ := hends hedge
      have hsource := get?_eq_of_requiredAttribute hsource
      have htarget := get?_eq_of_requiredAttribute htarget
      have hhandle := hidentity.ends
      simp only [hedge, if_true] at hhandle
      have hsourceHandle : isDocumentHandle source :=
        hhandle "_from" (by simp) source (by simp [hsource, Json.asString?])
      have htargetHandle : isDocumentHandle target :=
        hhandle "_to" (by simp) target (by simp [htarget, Json.asString?])
      refine ⟨Assoc.insert "_to" (.string target)
        (Assoc.insert "_from" (.string source) (loaded moment).identity.members), ?_,
        Assoc.sorted_insert (Assoc.sorted_insert hsorted), fun name => ?_⟩
      · simp [dumpEndpoints, hedge, hentitySource, hentityTarget, resolveEndpoint,
          hsourceHandle, htargetHandle]
      · split
        · rename_i hname
          simp only [reservedAttributes, List.mem_cons, List.not_mem_nil, or_false] at hname
          rcases hname with rfl | rfl | rfl | rfl | rfl <;>
            simp [Assoc.get?_insert, Identity.get?_members, hkey, hid, hrev, hsource, htarget]
        · rename_i hname
          have hfrom : "_from" ≠ name := fun heq => hname (heq ▸ by simp [reservedAttributes])
          have hto : "_to" ≠ name := fun heq => hname (heq ▸ by simp [reservedAttributes])
          simp [Assoc.get?_insert, hfrom, hto, Identity.get?_members_of_not_reserved hname]
  | false =>
      have hends : ∀ name ∈ ["_from", "_to"], Assoc.get? name members = none := by
        intro name hname
        simpa [hedge] using hidentity.ends name hname
      refine ⟨(loaded moment).identity.members, by simp [dumpEndpoints, hedge], hsorted, ?_⟩
      intro name
      split
      · rename_i hname
        simp only [reservedAttributes, List.mem_cons, List.not_mem_nil, or_false] at hname
        rcases hname with rfl | rfl | rfl | rfl | rfl <;>
          simp [Identity.get?_members, hkey, hid, hrev, hends]
      · rename_i hname
        exact Identity.get?_members_of_not_reserved hname

/-- Dumping a loaded entity gives its object back without what the schema omits, where the codecs
that the program brings along write back what they read.  In particular a default that stood in for
a missing field is not written, whatever a factory brought for it. -/
theorem dump_load {declaration schema : Schema} (hbuild : declaration.build = .ok schema)
    (hkind : schema.kind ≠ .embedded) (hparts : schema.nestsParts)
    (hcodecs : ∀ number, schema.Declares (.custom number) →
      (CustomCodecs.codec number).WritesBack)
    {members : Json.Members} (hordered : (Json.object members).isOrdered)
    (hidentity : schema.CanonicalIdentity members) (hcanonical : schema.isCanonical members)
    {loaded : Drawn Entity} (hload : schema.load members = .ok loaded) (moment : Moment) :
    schema.dump (loaded moment) = .ok (schema.trim members moment) := by
  obtain ⟨record, identity, hrecord, _, _, _, hsame, rfl, hstate, _⟩ := load_cases hload moment
  obtain ⟨written, hwritten, hsorted, hget⟩ := dumpEndpoints_of_load hload hidentity moment
  obtain ⟨hmembers, hinner⟩ := Json.isOrdered_object.1 hordered
  have hlive : (loaded moment).liveRecord = .ok (record moment) := by
    have hstate : (loaded moment).state ≠ .deleted := by
      rw [hstate]
      split <;> simp
    simp [Entity.liveRecord, Entity.ensureLive, hstate, hsame]
  have hfield : ∀ field ∈ schema.fields, ∀ slot, field.loadSlot members = .ok slot →
      ∀ moment, (slot moment).dump field = .ok (field.kept members moment) := by
    cases schema
    exact fields_dump_loaded _ hparts hcodecs hcanonical hinner
  simp only [dump, hlive, hwritten, ok_bind]
  refine dumpRecord_of_loadRecord hrecord (nodup_of_build hbuild) hfield ?_ hmembers hsorted ?_
    moment
  · intro key hkey hdeclared
    exact not_reserved_of_build hbuild hdeclared ((isIdentity_iff hkind).1 hkey)
  · intro key
    rw [hget]
    simp only [isIdentity_iff hkind]

end

def stopSchema : Schema :=
  ⟨"stop", .embedded, [⟨"place", .string, true, none, false, none⟩,
    ⟨"delay", .primitive .int, false, some (.fixed (.int 0)), true, none⟩,
    ⟨"sheltered", .primitive .bool, false, none, false, some (.custom 0)⟩], true, []⟩

def tripSchema : Schema :=
  ⟨"trips", .document, [
    ⟨"title", .string, true, none, false, none⟩,
    ⟨"rating", .primitive .float, false, some (.fixed (.float ⟨0x3ff0000000000000⟩)), true, none⟩,
    ⟨"leaves", .primitive .datetime, false, none, false, none⟩,
    ⟨"seen", .primitive .datetime, false, none, false, some .epochMillis⟩,
    ⟨"code", .primitive .uuid, false, none, false, none⟩,
    ⟨"seats", .primitive .int, false, some (.fixed (.int 4)), false, none⟩,
    ⟨"number", .primitive .int, false,
      some (.factory fun moment => .int (Int64.ofNat moment.length)), false, none⟩,
    ⟨"stops", .listOf (.nested stopSchema), false, none, false, none⟩], true, []⟩

def tripMembers : Json.Members := [
  ("_key", .string "7"),
  ("code", .string "67e55044-10b1-426f-9247-bb680e5fe0c8"),
  ("extra", .array [.null, .bool true]),
  ("leaves", .string "2024-02-29T23:59:60.500Z"),
  ("rating", .ofInt64 1),
  ("seen", .ofInt64 (-1)),
  ("stops", .array [
    .object [("delay", .ofInt64 0), ("place", .string "A"), ("x", .null)],
    .object [("delay", .ofInt64 5), ("place", .string "B"), ("sheltered", .string "yes")]]),
  ("title", .string "round")]

def yesNo : FieldCodec where
  encode field value :=
    match value with
    | .bool true => .ok (.string "yes")
    | .bool false => .ok (.string "no")
    | value => .error (.invalidValue field "bool" value.typeName)
  decode field raw :=
    if raw.asString? = some "yes" then .ok (.bool true)
    else if raw.asString? = some "no" then .ok (.bool false)
    else .error (mismatch field "yes or no" raw)

theorem writesBack_yesNo : yesNo.WritesBack := by
  intro field raw value _ h
  simp only [yesNo] at h
  cases raw with
  | string s =>
      simp only [Json.asString?, Option.some.injEq] at h
      split at h
      · subst_vars
        obtain rfl := Except.ok.inj h
        exact ⟨by simp, rfl⟩
      · split at h
        · subst_vars
          obtain rfl := Except.ok.inj h
          exact ⟨by simp, rfl⟩
        · simp at h
  | _ => simp [Json.asString?] at h

section

/-- A program that writes truth values as words. -/
local instance yesNoCodecs : CustomCodecs := ⟨fun _ => yesNo⟩

/-- An omitted default is left out at both depths: as the integer 1 where the default is the float,
and in one of the two parts.  The number that a factory brought is left out as well. -/
theorem dump_load_trip : ∃ loaded, tripSchema.load tripMembers = .ok loaded ∧
    tripSchema.dump (loaded [true]) = .ok [
      ("_key", .string "7"),
      ("code", .string "67e55044-10b1-426f-9247-bb680e5fe0c8"),
      ("extra", .array [.null, .bool true]),
      ("leaves", .string "2024-02-29T23:59:60.500Z"),
      ("seen", .ofInt64 (-1)),
      ("stops", .array [
        .object [("place", .string "A"), ("x", .null)],
        .object [("delay", .ofInt64 5), ("place", .string "B"), ("sheltered", .string "yes")]]),
      ("title", .string "round")] := by
  have hbuilds : tripSchema.build.isOk := by decide +kernel
  have hloads : (tripSchema.load tripMembers).isOk := by decide +kernel
  obtain ⟨built, hbuild⟩ := exists_of_isOk hbuilds
  obtain rfl := (build_eq_ok hbuild).1
  obtain ⟨loaded, hload⟩ := exists_of_isOk hloads
  have hidentity : tripSchema.CanonicalIdentity tripMembers :=
    ⟨by decide +kernel, by decide +kernel⟩
  refine ⟨loaded, hload, ?_⟩
  rw [dump_load hbuild (by decide) (by decide +kernel) (fun _ _ => writesBack_yesNo)
    (by decide +kernel) hidentity (by decide +kernel) hload]
  exact congrArg Except.ok (by decide +kernel)

end

end Schema

end DocGraph
