import DocGraph.Client.Collection
import DocGraph.Proofs.Entity.Stored
import DocGraph.Proofs.Query.Meaning
import DocGraph.Proofs.Record.Readable
import DocGraph.Proofs.Schema.Path
/-!
# Rows of a projection

A projection makes a row of each document, and the query derives a schema for the rows from the
types of the paths.  A row of a document that was loaded is loaded in turn, unless an attribute is
named like a part of the identity, a codec has read what the type of its field does not read, or a
nested record holds an attribute that is named like a reserved one.
-/

namespace DocGraph

open Outcome

/-! ## Rows -/

/-- What a projection takes from a document: what stands at its path, or the whole document. -/
def Projection.valueIn (projection : Projection) (document : Json) : Json :=
  match projection.source with
  | .field field => document.valueAt field.path
  | .var _ => document

def projectedRow (projections : List Projection) (members : Json.Members) : Json.Members :=
  Assoc.ofList (projections.map fun projection =>
    (projection.name, projection.valueIn (.object members)))

/-- The value of a projection is one that the schema of the rows reads: under a name of the
identity it is a text, and it suits the type of its path. -/
structure Projection.Fits [CustomCodecs] (schema : Schema) (members : Json.Members)
    (projection : Projection) : Prop where
  identity : projection.name ∈ Schema.identityAttributes →
    (projection.valueIn (.object members)).isText = true
  suits : ∀ field pathEnd, projection.source = .field field →
    schema.pathEnd? field.path = some pathEnd →
    pathEnd.Suits schema field.path (projection.valueIn (.object members))

section Rows

variable {projections : List Projection} {members : Json.Members}

theorem keys_projectedRow (projections : List Projection) (members : Json.Members) {key : String}
    (h : key ∈ (projectedRow projections members).map Prod.fst) :
    key ∈ projections.map Projection.name := by
  obtain ⟨entry, hentry, rfl⟩ := List.mem_map.1 h
  obtain ⟨projection, hmem, rfl⟩ := List.mem_map.1 (Assoc.mem_of_mem_ofList hentry)
  exact List.mem_map_of_mem hmem

theorem get?_projectedRow (hnames : (projections.map Projection.name).Nodup)
    {projection : Projection} (h : projection ∈ projections) :
    Assoc.get? projection.name (projectedRow projections members) =
      some (projection.valueIn (.object members)) := by
  have hkeys : ((projections.map fun projection =>
      (projection.name, projection.valueIn (.object members))).map Prod.fst).Nodup := by
    rw [List.map_map]
    exact hnames
  rw [projectedRow, Assoc.get?_ofList hkeys]
  exact Assoc.get?_eq_some_of_mem hkeys (List.mem_map_of_mem h)

theorem get?_projectedRow_of_not_mem {name : String}
    (h : name ∉ projections.map Projection.name) :
    Assoc.get? name (projectedRow projections members) = none :=
  Assoc.get?_eq_none_of_not_mem fun hmem => h (keys_projectedRow projections members hmem)

theorem isText_projectedRow_iff (hnames : (projections.map Projection.name).Nodup) :
    (∀ name ∈ Schema.identityAttributes,
      ((Json.object (projectedRow projections members)).valueAt [name]).isText = true) ↔
      ∀ projection ∈ projections, projection.name ∈ Schema.identityAttributes →
        (projection.valueIn (.object members)).isText = true := by
  constructor
  · intro h projection hmem hidentity
    have htext := h projection.name hidentity
    rwa [Json.valueAt_object, get?_projectedRow hnames hmem] at htext
  · intro h name hidentity
    rw [Json.valueAt_object]
    by_cases hmem : name ∈ projections.map Projection.name
    · obtain ⟨projection, hprojection, rfl⟩ := List.mem_map.1 hmem
      rw [get?_projectedRow hnames hprojection]
      exact h projection hprojection hidentity
    · rw [get?_projectedRow_of_not_mem hmem]
      rfl

end Rows

/-! ## Loading rows -/

section

variable [CustomCodecs]

theorem FieldSpec.exists_loadSlot_iff {field : FieldSpec} {members : Json.Members}
    (hoptional : field.isRequired = false) (hcodec : field.codec? = none) :
    (∃ slot, field.loadSlot members = .ok slot) ↔
      ∀ raw, Assoc.get? field.name members = some raw →
        raw = .null ∨ ∃ value, field.type.decode field.name raw = .ok value := by
  constructor
  · rintro ⟨slot, hslot⟩ raw hget
    rcases FieldSpec.loadSlot_cases hslot with ⟨hnone, _⟩ | ⟨hnull, _⟩ |
      ⟨found, value, hfound, _, _, hread⟩
    · simp [hget] at hnone
    · exact .inl (Option.some.inj (hget.symm.trans hnull))
    · obtain rfl : raw = found := Option.some.inj (hget.symm.trans hfound)
      rcases hread with ⟨_, _, hsome, _⟩ | ⟨_, hdecode⟩
      · simp [hcodec] at hsome
      · exact .inr ⟨value, hdecode⟩
  · intro h
    cases hget : Assoc.get? field.name members with
    | none => exact FieldSpec.loadSlot_of_none hget (.inr hoptional)
    | some raw =>
        by_cases hnull : raw = .null
        · rw [hnull] at hget
          exact ⟨_, FieldSpec.loadSlot_of_null hget hoptional⟩
        · obtain ⟨value, hdecode⟩ := (h raw hget).resolve_left hnull
          exact ⟨_, FieldSpec.loadSlot_of_type hget hnull hcodec hdecode⟩

namespace Schema

theorem exists_loadRecord_iff {schema : Schema} {members : Json.Members}
    (hkeys : ∀ key ∈ members.map Prod.fst, key ∈ schema.fields.map FieldSpec.name) :
    (∃ record, schema.loadRecord members = .ok record) ↔
      ∀ field ∈ schema.fields, ∃ slot, field.loadSlot members = .ok slot := by
  constructor
  · rintro ⟨record, hrecord⟩ field hmem
    obtain ⟨slots, _, hslots, _⟩ := loadRecord_cases hrecord
    rw [loadSlots_eq_mapM] at hslots
    obtain ⟨slot, _, hslot⟩ := exists_result_of_mapM hslots field hmem
    exact ⟨slot, hslot⟩
  · intro h
    obtain ⟨extras, hextras⟩ := exists_loadExtras fun key hkey => .inr (.inl (hkeys key hkey))
    obtain ⟨slots, hslots⟩ := exists_mapM_eq_ok h
    rw [← loadSlots_eq_mapM] at hslots
    cases schema
    exact ⟨_, by simp only [loadRecord, hslots, hextras, ok_bind]; rfl⟩

omit [CustomCodecs] in
theorem exists_identityAttribute_iff {members : Json.Members} {name : String} :
    (∃ text, identityAttribute members name = .ok text) ↔
      ((Json.object members).valueAt [name]).isText = true := by
  constructor
  · rintro ⟨text, htext⟩
    exact isText_of_identityAttribute htext
  · intro h
    rw [Json.valueAt_object] at h
    unfold identityAttribute
    cases hget : Assoc.get? name members with
    | none => exact ⟨_, rfl⟩
    | some raw =>
        rw [hget] at h
        cases raw with
        | null => exact ⟨_, rfl⟩
        | string s => exact ⟨_, rfl⟩
        | _ => simp [Json.valueAt, Json.isText] at h

theorem exists_load_iff {schema : Schema} (hedge : schema.isEdge = false)
    {members : Json.Members} :
    (∃ entity, schema.load members = .ok entity) ↔
      (∃ record, schema.loadRecord members = .ok record) ∧
        ∀ name ∈ identityAttributes, ((Json.object members).valueAt [name]).isText = true := by
  constructor
  · rintro ⟨loaded, hloaded⟩
    obtain ⟨record, _, hrecord, hkey, hid, hrev, _⟩ := load_cases hloaded .declared
    refine ⟨⟨record, hrecord⟩, ?_⟩
    simp only [identityAttributes, List.forall_mem_cons]
    exact ⟨isText_of_identityAttribute hid, isText_of_identityAttribute hkey,
      isText_of_identityAttribute hrev, by simp⟩
  · rintro ⟨⟨record, hrecord⟩, htexts⟩
    simp only [identityAttributes, List.forall_mem_cons] at htexts
    obtain ⟨hid, hkey, hrev, _⟩ := htexts
    obtain ⟨id, hid⟩ := exists_identityAttribute_iff.2 hid
    obtain ⟨key, hkey⟩ := exists_identityAttribute_iff.2 hkey
    obtain ⟨rev, hrev⟩ := exists_identityAttribute_iff.2 hrev
    unfold load
    simp only [hrecord, hid, hkey, hrev, ok_bind, hedge]
    exact ⟨_, rfl⟩

end Schema

end

/-! ## Attributes of rows -/

theorem forall_mem_iff_of_forall₂ {α β : Type} {related : α → β → Prop} {left : List α}
    {right : List β} (h : List.Forall₂ related left right) {p : α → Prop} {q : β → Prop}
    (hpq : ∀ a ∈ left, ∀ b, related a b → (p a ↔ q b)) :
    (∀ a ∈ left, p a) ↔ ∀ b ∈ right, q b := by
  induction h with
  | nil => simp
  | cons hhead _ ih =>
      rw [List.forall_mem_cons, List.forall_mem_cons, hpq _ List.mem_cons_self _ hhead,
        ih fun a hmem => hpq a (List.mem_cons_of_mem _ hmem)]

namespace Query

variable {query after : Query} {projections : List Projection}

/-- An attribute of a row belongs to a projection: it has its name, and its source with the type
that goes with it. -/
def Derives (query : Query) (projection : Projection) (resolved : Projection × FieldType) :
    Prop :=
  resolved.1.name = projection.name ∧
    query.resolveSource projection.source = .ok (resolved.1.source, resolved.2)

theorem resolveAttributes_eq_ok {names : List String} {attributes : List (Projection × FieldType)}
    (h : query.resolveAttributes names projections = .ok attributes) :
    List.Forall₂ query.Derives projections attributes ∧
      (projections.map Projection.name).Nodup ∧
      ∀ name ∈ projections.map Projection.name, name ∉ names := by
  induction projections generalizing names attributes with
  | nil =>
      obtain rfl := Except.ok.inj h
      simp
  | cons projection rest ih =>
      unfold resolveAttributes at h
      by_cases hname : projection.name = "" ∨ projection.name ∈ names
      · rw [if_pos hname] at h
        cases h
      rw [if_neg hname] at h
      obtain ⟨⟨source, type⟩, hsource, h⟩ := bind_eq_ok_iff.1 h
      obtain ⟨others, hothers, h⟩ := bind_eq_ok_iff.1 h
      obtain rfl := Except.ok.inj h
      obtain ⟨hderives, hnodup, hfresh⟩ := ih hothers
      have hnew : projection.name ∉ rest.map Projection.name := fun hmem =>
        hfresh projection.name hmem List.mem_cons_self
      refine ⟨.cons ⟨rfl, hsource⟩ hderives, List.nodup_cons.2 ⟨hnew, hnodup⟩, ?_⟩
      refine List.forall_mem_cons.2 ⟨(not_or.1 hname).2, fun name hmem hnames => ?_⟩
      exact hfresh name hmem (List.mem_cons_of_mem _ hnames)

theorem project_eq_ok (h : query.project projections = .ok after) :
    ∃ attributes, query.resolveAttributes [] projections = .ok attributes ∧
      after = query.push (.project (attributes.map (·.1)) (query.rowSchema attributes)) := by
  obtain ⟨attributes, hattributes, h⟩ := bind_eq_ok_iff.1 h
  by_cases hempty : attributes.isEmpty = true
  · rw [if_pos hempty] at h
    cases h
  · rw [if_neg hempty] at h
    exact ⟨attributes, hattributes, (Except.ok.inj h).symm⟩

theorem resultSchema_push_project (query : Query) (attributes : List Projection) (row : Schema) :
    (query.push (.project attributes row)).resultSchema = row := by
  simp [resultSchema, push]

theorem binding?_root (query : Query) : query.binding? query.root.var = some query.root := by
  simp [binding?, bindings]

theorem type_of_resolveSource {field : FieldRef} (hroot : query.varOf field = query.root.var)
    {source : ProjectionSource} {type : FieldType}
    (h : query.resolveSource (.field field) = .ok (source, type)) :
    ∃ pathEnd, query.root.schema.pathEnd? field.path = some pathEnd ∧
      type = pathEnd.type?.getD .any := by
  obtain ⟨resolved, hresolved, h⟩ := bind_eq_ok_iff.1 h
  obtain ⟨-, rfl⟩ := Prod.mk.inj (Except.ok.inj h)
  unfold resolveField at hresolved
  dsimp only at hresolved
  rw [show field.var?.getD query.current.var = query.root.var from hroot,
    binding?_root] at hresolved
  dsimp only at hresolved
  cases htype : query.root.schema.resolvePath field.path with
  | error error => simp [htype] at hresolved
  | ok type? =>
      rw [htype] at hresolved
      obtain rfl := Except.ok.inj hresolved
      unfold Schema.resolvePath at htype
      split at htype
      · rename_i found hfound
        obtain rfl : found = type? := Except.ok.inj htype
        split at hfound
        · simp at hfound
        · rw [Schema.pathType?_eq] at hfound
          obtain ⟨pathEnd, hend, rfl⟩ := Option.map_eq_some_iff.1 hfound
          exact ⟨pathEnd, hend, rfl⟩
      · simp at htype

theorem names_rowSchema {attributes : List (Projection × FieldType)}
    (h : List.Forall₂ query.Derives projections attributes) :
    (query.rowSchema attributes).fields.map FieldSpec.name = projections.map Projection.name := by
  show (attributes.map _).map FieldSpec.name = _
  rw [List.map_map]
  induction h with
  | nil => rfl
  | cons hhead _ ih => rw [List.map_cons, List.map_cons, ih, ← hhead.1, Function.comp_apply]

section Load

variable [CustomCodecs] {members : Json.Members} {loaded : Drawn Entity}
  (hload : query.root.schema.load members = .ok loaded)

include hload

theorem exists_loadSlot_iff_suits (hnames : (projections.map Projection.name).Nodup)
    {projection : Projection} (hmem : projection ∈ projections) {field : FieldRef}
    (hsource : projection.source = .field field) (hroot : query.varOf field = query.root.var)
    {resolved : Projection × FieldType} (hderives : query.Derives projection resolved) :
    (∀ pathEnd, query.root.schema.pathEnd? field.path = some pathEnd →
      pathEnd.Suits query.root.schema field.path (projection.valueIn (.object members))) ↔
      ∃ slot, FieldSpec.loadSlot ⟨resolved.1.name, resolved.2, false, none, false, none⟩
        (projectedRow projections members) = .ok slot := by
  obtain ⟨hname, hresolved⟩ := hderives
  rw [hsource] at hresolved
  obtain ⟨pathEnd, hend, htype⟩ := type_of_resolveSource hroot hresolved
  have hvalue : projection.valueIn (.object members) =
      (Json.object members).valueAt field.path := by
    rw [Projection.valueIn, hsource]
  have hget : Assoc.get? resolved.1.name (projectedRow projections members) =
      some ((Json.object members).valueAt field.path) := by
    rw [hname, get?_projectedRow hnames hmem, hvalue]
  have hsuits := Schema.exists_decode_iff_suits hload hend resolved.1.name
  rw [FieldSpec.exists_loadSlot_iff rfl rfl, hvalue]
  dsimp only
  rw [hget, htype]
  constructor
  · intro h raw hraw
    obtain rfl := Option.some.inj hraw
    exact hsuits.2 (h pathEnd hend)
  · intro h other hother
    obtain rfl : pathEnd = other := Option.some.inj (hend.symm.trans hother)
    exact hsuits.1 (h _ rfl)

/-- The values that projections take from a document are loaded as a row exactly when each of them
fits. -/
theorem exists_load_projectedRow_iff {attributes : List (Projection × FieldType)}
    (hattributes : query.resolveAttributes [] projections = .ok attributes)
    (hroot : ∀ projection ∈ projections, ∃ field, projection.source = .field field ∧
      query.varOf field = query.root.var) :
    (∃ row, (query.rowSchema attributes).load (projectedRow projections members) = .ok row) ↔
      ∀ projection ∈ projections, projection.Fits query.root.schema members := by
  obtain ⟨hderives, hnames, _⟩ := resolveAttributes_eq_ok hattributes
  have hkeys : ∀ key ∈ (projectedRow projections members).map Prod.fst,
      key ∈ (query.rowSchema attributes).fields.map FieldSpec.name := by
    intro key hkey
    rw [names_rowSchema hderives]
    exact keys_projectedRow projections members hkey
  have hslots : (∀ projection ∈ projections, ∀ field pathEnd,
      projection.source = .field field → query.root.schema.pathEnd? field.path = some pathEnd →
      pathEnd.Suits query.root.schema field.path (projection.valueIn (.object members))) ↔
      ∀ spec ∈ (query.rowSchema attributes).fields,
        ∃ slot, spec.loadSlot (projectedRow projections members) = .ok slot := by
    refine Iff.trans ?_ List.forall_mem_map.symm
    apply forall_mem_iff_of_forall₂ hderives
    intro projection hmem resolved hresolved
    obtain ⟨field, hsource, hvar⟩ := hroot projection hmem
    rw [← exists_loadSlot_iff_suits hload hnames hmem hsource hvar hresolved]
    constructor
    · intro h pathEnd hend
      exact h field pathEnd hsource hend
    · intro h other pathEnd hother hend
      obtain rfl := ProjectionSource.field.inj (hsource.symm.trans hother)
      exact h pathEnd hend
  rw [Schema.exists_load_iff rfl, Schema.exists_loadRecord_iff hkeys, ← hslots,
    isText_projectedRow_iff hnames]
  constructor
  · rintro ⟨hsuits, hidentity⟩ projection hmem
    exact ⟨hidentity projection hmem, hsuits projection hmem⟩
  · intro hfits
    exact ⟨fun projection hmem => (hfits projection hmem).suits,
      fun projection hmem => (hfits projection hmem).identity⟩

end Load

/-! ## Projections of the root -/

/-- A query that ends in a projection of fields of the root loads the row of a document that its
schema loads exactly when every value fits; and it is with this schema that a collection decodes
rows. -/
theorem projected_row_loads_iff [CustomCodecs] (hproject : query.project projections = .ok after)
    (hroot : ∀ projection ∈ projections, ∃ field, projection.source = .field field ∧
      query.varOf field = query.root.var)
    {members : Json.Members} {loaded : Drawn Entity}
    (hload : query.root.schema.load members = .ok loaded) :
    ((∃ row, after.resultSchema.load (projectedRow projections members) = .ok row) ↔
      ∀ projection ∈ projections, projection.Fits query.root.schema members) ∧
    ∀ (collection : Collection) (cursor : Cursor (Drawn Entity)),
      collection.query after = .ok cursor →
        ∀ row, cursor.decode (.object row) = after.resultSchema.load row := by
  obtain ⟨attributes, hattributes, rfl⟩ := project_eq_ok hproject
  rw [resultSchema_push_project]
  refine ⟨exists_load_projectedRow_iff hload hattributes hroot, ?_⟩
  intro collection cursor hcursor row
  obtain ⟨_, _, hcursor⟩ := bind_eq_ok_iff.1 hcursor
  obtain ⟨compiled, _, hcursor⟩ := bind_eq_ok_iff.1 hcursor
  obtain rfl := Except.ok.inj hcursor
  show Collection.decodeRow _ _ = _
  rw [resultSchema_push_project]
  rfl

section

attribute [local instance] CustomCodecs.none

def sightings : Schema :=
  ⟨"sightings", .document, [
    ⟨"at", .primitive .datetime, true, none, false, some .epochMillis⟩,
    ⟨"count", .primitive .int, false, some (.fixed (.int 1)), true, none⟩,
    ⟨"place", .nested ⟨"place", .embedded, [], true, []⟩, false, none, false, none⟩], false, []⟩

def sighting : Json.Members := [
  ("at", .ofInt64 1500),
  ("count", .ofInt64 3),
  ("place", .object [("_key", .ofInt64 5), ("name", .string "pier")])]

def noted : List Projection :=
  [⟨"count", .field (.ofPath ["count"])⟩, ⟨"place", .field (.ofPath ["place", "name"])⟩]

theorem projected_row_loads_sighting :
    ∃ after row, (ofSchema sightings).project noted = .ok after ∧
      after.resultSchema.load (projectedRow noted sighting) = .ok row := by
  obtain ⟨after, hproject⟩ : ∃ after, (ofSchema sightings).project noted = .ok after :=
    exists_of_isOk (by decide +kernel)
  obtain ⟨loaded, hload⟩ : ∃ loaded, sightings.load sighting = .ok loaded :=
    exists_of_isOk (by decide +kernel)
  have hroot : ∀ projection ∈ noted, ∃ field, projection.source = .field field ∧
      (ofSchema sightings).varOf field = (ofSchema sightings).root.var := by
    rw [noted, List.forall_mem_cons, List.forall_mem_singleton]
    exact ⟨⟨_, rfl, rfl⟩, ⟨_, rfl, rfl⟩⟩
  have hfits : ∀ projection ∈ noted, projection.Fits sightings sighting := by
    rw [noted, List.forall_mem_cons, List.forall_mem_singleton]
    have hcount : sightings.pathEnd? ["count"] = some (.declared
        ⟨"count", .primitive .int, false, some (.fixed (.int 1)), true, none⟩) := rfl
    have hplace : sightings.pathEnd? ["place", "name"] = some .untyped := rfl
    refine ⟨⟨fun h => absurd h (by decide), ?_⟩, ⟨fun h => absurd h (by decide), ?_⟩⟩
    · rintro _ pathEnd ⟨⟩ hend
      obtain rfl := Option.some.inj (hcount.symm.trans hend)
      exact .inl rfl
    · rintro _ pathEnd ⟨⟩ hend
      obtain rfl := Option.some.inj (hplace.symm.trans hend)
      trivial
  obtain ⟨row, hrow⟩ := (projected_row_loads_iff hproject hroot hload).1.2 hfits
  exact ⟨after, row, hproject, hrow⟩

/-- A time in milliseconds, a count under the name of a key, and a key of a note are projected, but
their rows are not loaded, although the sighting is. -/
theorem projected_row_refused :
    sightings.build.isOk ∧ (sightings.load sighting).isOk ∧
      ∀ projection ∈ [⟨"at", .field (.ofPath ["at"])⟩, ⟨"_key", .field (.ofPath ["count"])⟩,
        ⟨"key", .field (.ofPath ["place", "_key"])⟩],
      let projected := (ofSchema sightings).project [projection]
      projected.isOk ∧ (projected.bind fun after =>
        after.resultSchema.load (projectedRow [projection] sighting)).isOk = false := by
  decide +kernel

end

end Query

end DocGraph
