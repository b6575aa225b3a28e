import DocGraph.Proofs.Graph.Named
/-!
# The catalogue of a database

A collection is described with its type and created once.  Collections that are made sure of come
beside those that are there, which stay as they are; so do the collections that a graph names, once
each of them is there.
-/

namespace DocGraph

namespace StoredCollection

def created (name : String) (type : CollectionType) : StoredCollection :=
  .empty type (name.toList.head? = some '_')

/-- The number that a description gives for a type; without one it is zero. -/
def describedType (body : Json) : Nat :=
  (((body.member? "type").bind Json.asUInt64?).getD 0).toNat

theorem describedType_describe (stored : StoredCollection) (name : String) :
    describedType (stored.describe name) = stored.type.number := by
  unfold describedType describe
  rw [Json.member?_ofMembers (by simp)]
  cases stored.type <;> rfl

end StoredCollection

theorem CollectionType.number_injective {type other : CollectionType}
    (h : type.number = other.number) : type = other := by
  cases type <;> cases other <;> simp_all [number]

namespace StoredDatabase

/-! ## Collections that are made sure of -/

def definitionBody (name : String) (type : CollectionType) : Json :=
  .ofMembers [("name", .string name), ("type", .ofNat type.number)]

theorem collectionDefinition?_definitionBody (name : String) (type : CollectionType) :
    collectionDefinition? (some (definitionBody name type)) = some (name, type) := by
  have hname : (definitionBody name type).member? "name" = some (.string name) :=
    Json.member?_ofMembers (by simp) _
  have htype : (definitionBody name type).member? "type" = some (.ofNat type.number) :=
    Json.member?_ofMembers (by simp) _
  simp only [collectionDefinition?, Option.bind_eq_bind, Option.bind_some, hname, htype]
  cases type <;> rfl

def ensure (database : StoredDatabase) (name : String) (type : CollectionType) : StoredDatabase :=
  match database.collections.get? name with
  | some _ => database
  | none => { database with collections := database.collections.insert name (.created name type) }

def ensureAll (database : StoredDatabase) (names : List String) (type : CollectionType) :
    StoredDatabase :=
  names.foldl (fun database name => database.ensure name type) database

variable {database : StoredDatabase} {name : String} {type : CollectionType}

theorem ensure_of_some {stored : StoredCollection}
    (h : database.collections.get? name = some stored) : database.ensure name type = database := by
  unfold ensure
  rw [h]

theorem ensure_of_none (h : database.collections.get? name = none) :
    database.ensure name type =
      { database with collections := database.collections.insert name (.created name type) } := by
  unfold ensure
  rw [h]

theorem get?_ensure (database : StoredDatabase) (name other : String) (type : CollectionType) :
    (database.ensure name type).collections.get? other =
      (database.collections.get? other).or
        (if other = name then some (.created name type) else none) := by
  cases hname : database.collections.get? name with
  | some stored =>
      rw [ensure_of_some hname]
      by_cases hother : other = name
      · rw [hother, hname]
        rfl
      · rw [if_neg hother, Option.or_none]
  | none =>
      rw [ensure_of_none hname, Table.get?_insert]
      by_cases hother : other = name
      · rw [if_pos hother.symm, if_pos hother, hother, hname]
        rfl
      · rw [if_neg (Ne.symm hother), if_neg hother, Option.or_none]

theorem isSome_ensure (database : StoredDatabase) (name : String) (type : CollectionType) :
    ((database.ensure name type).collections.get? name).isSome := by
  rw [get?_ensure, Option.isSome_or, if_pos rfl, Option.isSome_some, Bool.or_true]

theorem ensure_ensure (database : StoredDatabase) (name : String) (type : CollectionType) :
    (database.ensure name type).ensure name type = database.ensure name type := by
  obtain ⟨stored, hstored⟩ := Option.isSome_iff_exists.1 (database.isSome_ensure name type)
  exact ensure_of_some hstored

theorem get?_ensureAll (database : StoredDatabase) (names : List String) (type : CollectionType)
    (other : String) :
    (database.ensureAll names type).collections.get? other =
      (database.collections.get? other).or
        (if other ∈ names then some (.created other type) else none) := by
  induction names generalizing database with
  | nil => simp [ensureAll]
  | cons name names ih =>
      have htail := ih (database.ensure name type)
      rw [get?_ensure, Option.or_assoc] at htail
      refine htail.trans (congrArg _ ?_)
      by_cases hother : other = name
      · simp [hother]
      · simp [hother]

@[simp] theorem graphs_ensure (database : StoredDatabase) (name : String)
    (type : CollectionType) : (database.ensure name type).graphs = database.graphs := by
  unfold ensure
  split <;> rfl

@[simp] theorem lastKey_ensure (database : StoredDatabase) (name : String)
    (type : CollectionType) : (database.ensure name type).lastKey = database.lastKey := by
  unfold ensure
  split <;> rfl

@[simp] theorem graphs_ensureAll (database : StoredDatabase) (names : List String)
    (type : CollectionType) : (database.ensureAll names type).graphs = database.graphs := by
  induction names generalizing database with
  | nil => rfl
  | cons name names ih => exact (ih _).trans (graphs_ensure database name type)

@[simp] theorem lastKey_ensureAll (database : StoredDatabase) (names : List String)
    (type : CollectionType) : (database.ensureAll names type).lastKey = database.lastKey := by
  induction names generalizing database with
  | nil => rfl
  | cons name names ih => exact (ih _).trans (lastKey_ensure database name type)

theorem readCollection_eq (database : StoredDatabase) (name : String) :
    database.readCollection name =
      match database.collections.get? name with
      | some stored => .ok ⟨⟨200, stored.describe name⟩, database⟩
      | none => .error .collectionNotFound := by
  unfold readCollection collection
  cases database.collections.get? name <;> rfl

theorem createCollection_eq (database : StoredDatabase) (name : String) (type : CollectionType) :
    database.createCollection (some (definitionBody name type)) =
      match database.collections.get? name with
      | some _ => .error .duplicateName
      | none => .ok ⟨⟨200, (StoredCollection.created name type).describe name⟩,
          database.ensure name type⟩ := by
  unfold createCollection
  rw [collectionDefinition?_definitionBody]
  cases hname : database.collections.get? name with
  | some stored => simp [Table.contains, hname]
  | none =>
      rw [ensure_of_none hname]
      simp [Table.contains, hname, grant, StoredCollection.created]

/-! ## Graphs -/

theorem readGraph_eq (database : StoredDatabase) (name : String) :
    database.readGraph name =
      match database.graphs.get? name with
      | some graph => .ok ⟨⟨200, .ofMembers [("graph", graph)]⟩, database⟩
      | none => .error .graphNotFound := by
  unfold readGraph
  cases database.graphs.get? name <;> rfl

theorem foldl_addCollection_of_present {named : List (String × CollectionType)}
    {collections : Table StoredCollection}
    (h : ∀ one ∈ named, (collections.get? one.1).isSome) :
    named.foldl addCollection collections = collections := by
  induction named with
  | nil => rfl
  | cons one named ih =>
      obtain ⟨hone, hnamed⟩ := List.forall_mem_cons.1 h
      have hkept : addCollection collections one = collections := if_pos hone
      rw [List.foldl_cons, hkept]
      exact ih hnamed

theorem createGraph_eq (database : StoredDatabase) (graph : GraphDefinition)
    (hpresent : ∀ name, name ∈ graph.vertexCollections ∨ name ∈ graph.edgeCollections →
      (database.collections.get? name).isSome)
    (hfree : database.graphs.get? graph.name = none) :
    ∃ body, database.createGraph (some graph.toJson) =
      .ok ⟨⟨202, body⟩,
        { database with graphs := database.graphs.insert graph.name graph.toJson }⟩ := by
  have hname : graph.toJson.member? "name" = some (.string graph.name) :=
    Json.member?_ofMembers (by simp) _
  have hkept := foldl_addCollection_of_present fun one hone =>
    hpresent one.1 (name_mem_of_mem_graphCollections hone)
  unfold createGraph
  simp only [Option.bind_some, hname, Json.asString?, Table.contains, hfree, hkept]
  exact ⟨_, rfl⟩

end StoredDatabase

end DocGraph
