import DocGraph.Client.Collection
import DocGraph.Proofs.Query.Row
import DocGraph.Proofs.Text.Parts
/-!
# Rows of collections and databases

A query can be run over a collection or over a whole database.  The rows of a projection are loaded
in the same way by both, except for those that name a registered collection: a database takes them
for documents of that collection.
-/

namespace DocGraph

open Outcome

/-- A row has the handle of a document of a registered collection. -/
def Registry.Names (registry : Registry) (members : Json.Members) (schema : Schema) : Prop :=
  ∃ collection key, '/' ∉ collection.toList ∧
    Assoc.get? "_id" members = some (.string (documentHandle collection key)) ∧
    registry.get? collection = some schema

theorem Registry.schemaFor?_eq_some_iff {registry : Registry} {members : Json.Members}
    {schema : Schema} :
    registry.schemaFor? members = some schema ↔ registry.Names members schema := by
  unfold schemaFor? Names
  constructor
  · intro h
    obtain ⟨raw, hraw, h⟩ := Option.bind_eq_some_iff.1 h
    obtain ⟨handle, hhandle, h⟩ := Option.bind_eq_some_iff.1 h
    obtain ⟨⟨collection, key⟩, hcut, hschema⟩ := Option.bind_eq_some_iff.1 h
    obtain ⟨rfl, hslash⟩ := cut?_documentHandle_iff.1 hcut
    obtain rfl := Json.eq_string_of_asString? hhandle
    exact ⟨collection, key, hslash, hraw, hschema⟩
  · rintro ⟨collection, key, hslash, hget, hschema⟩
    have hcut : Text.cut? '/' (documentHandle collection key) = some (collection, key) :=
      cut?_documentHandle_iff.2 ⟨rfl, hslash⟩
    rw [hget]
    show ((Text.cut? '/' (documentHandle collection key)).bind _) = _
    rw [hcut]
    exact hschema

namespace Collection

/-- A query that ends in a projection can be run over a collection and over its database.  Both send
the same request, and both load a row with the schema of the projection, unless the row has the
handle of a document of a registered collection, which the database loads with the schema of that
collection. -/
theorem query_rows_agree [CustomCodecs] {query : Query} {compiled : CompiledQuery}
    (hcompile : query.compile = .ok compiled) {attributes : List Projection} {rows : Schema}
    (hlast : query.nodes.getLast? = some (.project attributes rows)) {collection : Collection}
    (hroot : query.root.schema.name = collection.name) :
    ∃ ofCollection ofDatabase : Cursor (Drawn Entity),
      collection.query query = .ok ofCollection ∧ collection.database.query query = .ok ofDatabase ∧
      ofDatabase = { ofCollection with decode := ofDatabase.decode } ∧
      ∀ members : Json.Members, ofCollection.decode (.object members) = rows.load members ∧
        ((∀ schema, ¬ collection.database.registry.Names members schema) →
          ofDatabase.decode (.object members) = rows.load members) ∧
        ∀ schema, collection.database.registry.Names members schema →
          ofDatabase.decode (.object members) = schema.load members := by
  have hresult : query.resultSchema = rows := by
    rw [Query.resultSchema, hlast]
  have hcheck : collection.checkQuery query = .ok () := if_pos hroot
  have hcollection : collection.query query = .ok (collection.database.cursor compiled false
      (decodeRow rows)) := by
    rw [Collection.query, hcheck, hcompile, hresult]
    rfl
  let decode (row : Json) : Except Error (Drawn Entity) := do
    let members ← rowMembers row
    ((collection.database.registry.schemaFor? members).getD rows).load members
  have hdatabase : collection.database.query query =
      .ok (collection.database.cursor compiled false decode) := by
    rw [Database.query, hcompile, hresult]
    rfl
  refine ⟨_, _, hcollection, hdatabase, rfl, fun members => ⟨rfl, ?_, ?_⟩⟩
  · intro hunnamed
    have hnone : collection.database.registry.schemaFor? members = none := by
      refine Option.eq_none_iff_forall_ne_some.2 fun schema hschema => ?_
      exact hunnamed schema (Registry.schemaFor?_eq_some_iff.1 hschema)
    show ((collection.database.registry.schemaFor? members).getD rows).load members = _
    rw [hnone]
    rfl
  · intro schema hnames
    have hsome := Registry.schemaFor?_eq_some_iff.2 hnames
    show ((collection.database.registry.schemaFor? members).getD rows).load members = _
    rw [hsome]
    rfl

/-! ## Rows of users -/

attribute [local instance] CustomCodecs.none

def users : Collection :=
  let schema : Schema :=
    ⟨"users", .document, [⟨"name", .primitive .string, false, none, false, none⟩], false, []⟩
  ⟨⟨Config.default, ⟨Table.empty.insert "users" schema⟩⟩, schema⟩

def handlesOfUsers : Except Error Query :=
  (Query.ofSchema users.schema).project
    [⟨"_id", .field (.ofPath ["_id"])⟩, ⟨"name", .field (.ofPath ["name"])⟩]

/-- A row without a handle is the same to the collection of the users and to their database. -/
theorem query_rows_agree_users : ∃ query ofCollection ofDatabase row,
    handlesOfUsers = .ok query ∧ users.query query = .ok ofCollection ∧
    users.database.query query = .ok ofDatabase ∧
    ofCollection.decode (.object [("name", .string "Ann")]) = .ok row ∧
    ofDatabase.decode (.object [("name", .string "Ann")]) = .ok row := by
  have hok : (do
      let query ← handlesOfUsers
      let _ ← query.compile
      query.resultSchema.load [("name", .string "Ann")]).isOk := by decide +kernel
  obtain ⟨row, hrow⟩ := exists_of_isOk hok
  obtain ⟨query, hquery, hrow⟩ := bind_eq_ok_iff.1 hrow
  obtain ⟨compiled, hcompile, hrow⟩ := bind_eq_ok_iff.1 hrow
  obtain ⟨attributes, _, hpush⟩ := Query.project_eq_ok hquery
  have hlast : query.nodes.getLast? = some (.project (attributes.map (·.1))
      ((Query.ofSchema users.schema).rowSchema attributes)) := by
    simp [hpush, Query.push]
  have hroot : query.root.schema.name = users.name := by rw [hpush]; rfl
  obtain ⟨ofCollection, ofDatabase, hcollection, hdatabase, _, hdecode⟩ :=
    query_rows_agree hcompile hlast hroot
  have hunnamed : ∀ schema,
      ¬ users.database.registry.Names [("name", .string "Ann")] schema := by
    rintro schema ⟨_, _, _, hget, _⟩
    simp [Assoc.get?] at hget
  obtain ⟨hloaded, hsame, _⟩ := hdecode [("name", .string "Ann")]
  rw [hpush, Query.resultSchema_push_project] at hrow
  exact ⟨query, ofCollection, ofDatabase, row, hquery, hcollection, hdatabase,
    hloaded.trans hrow, (hsame hunnamed).trans hrow⟩

/-- A row with the handle of a user is a user to the database, but not to the collection. -/
theorem query_rows_differ :
    let row : Json := .object [("_id", .string "users/1"), ("name", .string "Ann")]
    let schemas : Except Error (String × String) := do
      let query ← handlesOfUsers
      let ofCollection ← users.query query
      let ofDatabase ← users.database.query query
      return (((← ofCollection.decode row) .declared).schema.name,
        ((← ofDatabase.decode row) .declared).schema.name)
    schemas.toOption = some ("users#projection", "users") := by
  decide +kernel

end Collection

end DocGraph
