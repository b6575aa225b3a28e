import DocGraph.Proofs.Table
import DocGraph.Proofs.World.Graphs
/-!
# Dropping a graph

Along with a graph go, if this is asked for, the collections that its definition names and that
the definition of no other graph does.  The other collections stay with all that they hold, and so
do the other graphs.
-/

namespace DocGraph

namespace StoredDatabase

/-! ## Names in a definition -/

def Lists (object : Json) (member : String) (item : Json) : Prop :=
  ∃ items, object.member? member = some (.array items) ∧ item ∈ items

inductive Names (graph : Json) (name : String) : Prop where
  | collection {edge : Json} (hedge : Lists graph "edgeDefinitions" edge)
      (hname : edge.member? "collection" = some (.string name))
  | source {edge : Json} (hedge : Lists graph "edgeDefinitions" edge)
      (hname : Lists edge "from" (.string name))
  | target {edge : Json} (hedge : Lists graph "edgeDefinitions" edge)
      (hname : Lists edge "to" (.string name))
  | orphan (hname : Lists graph "orphanCollections" (.string name))

theorem asString?_eq_some_iff {json : Json} {text : String} :
    json.asString? = some text ↔ json = .string text := by
  cases json <;> simp [Json.asString?]

theorem asArray?_eq_some_iff {json : Json} {items : List Json} :
    json.asArray? = some items ↔ json = .array items := by
  cases json <;> simp [Json.asArray?]

theorem mem_asArray?_getD_iff {object item : Json} {member : String} :
    item ∈ ((object.member? member).bind Json.asArray?).getD [] ↔ Lists object member item := by
  unfold Lists
  cases hmember : object.member? member with
  | none => simp
  | some list =>
      cases hlist : list.asArray? with
      | none =>
          have hother (items : List Json) : list ≠ .array items := by
            intro h
            rw [asArray?_eq_some_iff.2 h] at hlist
            cases hlist
          simp [hlist, hother]
      | some items =>
          obtain rfl := asArray?_eq_some_iff.1 hlist
          simp [Json.asArray?]

theorem mem_namesIn_iff {object : Json} {member name : String} :
    name ∈ namesIn (object.member? member) ↔ Lists object member (.string name) := by
  simp [namesIn, mem_asArray?_getD_iff, asString?_eq_some_iff]

theorem mem_names_edgeCollections_iff {edge : Json} {name : String} :
    name ∈ (edgeCollections edge).map (·.1) ↔
      edge.member? "collection" = some (.string name) ∨
        Lists edge "from" (.string name) ∨ Lists edge "to" (.string name) := by
  simp [edgeCollections, mem_namesIn_iff, Option.bind_eq_some_iff, asString?_eq_some_iff]

theorem mem_names_graphCollections_iff {graph : Json} {name : String} :
    name ∈ (graphCollections graph).map (·.1) ↔ Names graph name := by
  simp only [graphCollections, List.map_append, List.mem_append, List.map_flatMap,
    List.mem_flatMap, mem_asArray?_getD_iff, mem_names_edgeCollections_iff, List.map_map,
    Function.comp_def, List.map_id_fun', id, mem_namesIn_iff]
  constructor
  · rintro (⟨edge, hedge, hname | hname | hname⟩ | hname)
    · exact .collection hedge hname
    · exact .source hedge hname
    · exact .target hedge hname
    · exact .orphan hname
  · rintro (⟨hedge, hname⟩ | ⟨hedge, hname⟩ | ⟨hedge, hname⟩ | hname)
    · exact .inl ⟨_, hedge, .inl hname⟩
    · exact .inl ⟨_, hedge, .inr (.inl hname)⟩
    · exact .inl ⟨_, hedge, .inr (.inr hname)⟩
    · exact .inr hname

theorem mem_usedCollections_iff {graphs : Table Json} {name : String} :
    name ∈ usedCollections graphs ↔
      ∃ graph definition, graphs.get? graph = some definition ∧ Names definition name := by
  simp only [usedCollections, List.map_flatMap, List.mem_flatMap, mem_names_graphCollections_iff,
    Table.mem_values_iff, ← exists_and_right]
  exact exists_comm

/-! ## What is left of a database -/

/-- Whether a graph names a collection and no other graph does. -/
def NamesAlone (database : StoredDatabase) (graph name : String) : Prop :=
  (∃ definition, database.graphs.get? graph = some definition ∧ Names definition name) ∧
    ∀ other definition, other ≠ graph → database.graphs.get? other = some definition →
      ¬Names definition name

/-- A database without one of its graphs; the collections that the graph alone names are taken
along or not. -/
structure Without (before : StoredDatabase) (graph : String) (takesCollections : Prop)
    (after : StoredDatabase) : Prop where
  lastKey : after.lastKey = before.lastKey
  graphs : ∀ other,
    after.graphs.get? other = if other = graph then none else before.graphs.get? other
  taken : ∀ name, takesCollections ∧ before.NamesAlone graph name →
    after.collections.get? name = none
  kept : ∀ name, ¬(takesCollections ∧ before.NamesAlone graph name) →
    after.collections.get? name = before.collections.get? name

variable {database : StoredDatabase} {graph name : String} {definition : Json}

theorem namesAlone_iff (hgraph : database.graphs.get? graph = some definition) :
    database.NamesAlone graph name ↔
      name ∈ (graphCollections definition).map (·.1) ∧
        name ∉ usedCollections (database.graphs.erase graph) := by
  simp only [NamesAlone, hgraph, Option.some.injEq, exists_eq_left',
    mem_names_graphCollections_iff, mem_usedCollections_iff, Table.get?_erase]
  refine and_congr_right fun _ => ?_
  constructor
  · rintro hothers ⟨other, definition, hother, hname⟩
    by_cases hsame : graph = other
    · rw [if_pos hsame] at hother
      cases hother
    · rw [if_neg hsame] at hother
      exact hothers other definition (Ne.symm hsame) hother hname
  · intro hnone other definition hne hother hname
    exact hnone ⟨other, definition, by rw [if_neg hne.symm, hother], hname⟩

theorem dropGraph_eq (hgraph : database.graphs.get? graph = some definition)
    (takesCollections : Bool) :
    ∃ after, database.dropGraph graph takesCollections =
        .ok ⟨⟨202, .ofMembers [("removed", .bool true)]⟩, after⟩ ∧
      database.Without graph (takesCollections = true) after := by
  unfold dropGraph
  rw [hgraph]
  refine ⟨_, rfl, rfl, fun other => ?_, fun name hname => ?_, fun name hname => ?_⟩
  · rw [Table.get?_erase]
    simp only [eq_comm]
  · rw [namesAlone_iff hgraph] at hname
    rw [Table.get?_foldl_erase, if_pos hname.1, if_pos]
    simpa using hname.2
  · rw [namesAlone_iff hgraph] at hname
    rw [Table.get?_foldl_erase, if_neg]
    intro hmem
    cases takesCollections with
    | false => cases hmem
    | true => exact hname ⟨rfl, by simpa using hmem⟩

end StoredDatabase

/-! ## Requests -/

/-- A request to drop a registered graph is granted.  It takes the graph from its database, and the
collections that the graph alone names if it says so; nothing else changes. -/
theorem Server.handle_dropGraph {server : Server} (fresh : String) {request : Request}
    {name graph : String} {database : StoredDatabase} {definition : Json}
    (hmethod : request.method = .delete)
    (hpath : Http.parsePath? request.path = some (name, ["gharial", graph]))
    (hdatabase : server.databases.get? name = some database)
    (hgraph : database.graphs.get? graph = some definition) :
    ∃ after,
      server.handle fresh request =
        ⟨⟨202, .ofMembers [("removed", .bool true)]⟩,
          { server with databases := server.databases.insert name after }, false⟩ ∧
      database.Without graph (request.param? "dropCollections" = some "true") after := by
  obtain ⟨after, hruling, hafter⟩ :=
    StoredDatabase.dropGraph_eq hgraph (request.param? "dropCollections" = some "true")
  have hroute : server.route fresh name database request ["gharial", graph] =
      server.settle (server.within name (database.dropGraph graph
        (request.param? "dropCollections" = some "true"))) := by
    obtain ⟨method, path, query, body⟩ := request
    obtain rfl := hmethod
    rfl
  rw [hruling] at hroute
  refine ⟨after, ?_, by simpa using hafter⟩
  simp only [handle, hpath, hdatabase, hroute]
  rfl

/-- A client that drops a graph is told that it is gone, with the collections or without them. -/
theorem Database.run_dropGraph {database : Database} {host : Host} {stored : StoredDatabase}
    {name : String} {definition : Json} (draw : Nat → String) (takesCollections : Bool)
    (hready : host.Ready database.config.database stored)
    (hgraph : stored.graphs.get? name = some definition) :
    ∃ after,
      (database.dropGraph name takesCollections).run.run (Host.answerFrom draw) host =
        (.ok (), host.putDatabase database.config.database after) ∧
      stored.Without name (takesCollections = true) after := by
  obtain ⟨after, hruling, hafter⟩ := StoredDatabase.dropGraph_eq hgraph takesCollections
  have hanswer : host.answerFrom draw ⟨.delete, database.path ["gharial", name],
      [("dropCollections", toString takesCollections)], none⟩ =
      host.ruled database.config.database (stored.dropGraph name takesCollections) := by
    cases takesCollections <;> exact Host.answerFrom_of_ruling hready rfl fun _ => rfl
  rw [hruling] at hanswer
  refine ⟨after, ?_, hafter⟩
  unfold dropGraph
  rw [Client.run_send_bind, Exchange.run_ask hanswer]
  rfl

/-- A graph of the owners of ships, which shares a collection with the routes at each place. -/
def Database.owners : GraphDefinition :=
  ⟨"owners", [⟨"owns", ["owners", "flags"], ["ships", "owners"]⟩], ["flags"]⟩

def Database.seaport : StoredDatabase := (harbour.withGraph routes).withGraph owners

namespace Server

open Database StoredDatabase

def coast : Server := { Server.new [] with databases := Table.empty.insert "_system" seaport }

def dropRoutes : Request :=
  ⟨.delete, "/_db/_system/_api/gharial/routes", [("dropCollections", "true")], none⟩

/-- The calls and the ports go with the routes, and what the owners share with them stays. -/
theorem handle_dropGraph_routes :
    ∃ after,
      coast.handle "r1" dropRoutes =
        ⟨⟨202, .ofMembers [("removed", .bool true)]⟩,
          { coast with databases := coast.databases.insert "_system" after }, false⟩ ∧
      after.graphs.get? "routes" = none ∧ after.graphs.get? "owners" = some owners.toJson ∧
      (∀ name ∈ ["calls", "ports"], after.collections.get? name = none) ∧
      ∀ name ∈ ["_graphs", "owns", "owners", "ships", "flags"],
        after.collections.get? name = seaport.collections.get? name := by
  have hpath : Http.parsePath? dropRoutes.path = some ("_system", ["gharial", "routes"]) := by
    decide +kernel
  have hstored : coast.databases.get? "_system" = some seaport := rfl
  have hgraph : seaport.graphs.get? "routes" = some routes.toJson := by decide +kernel
  obtain ⟨after, hhandle, hafter⟩ := handle_dropGraph "r1" rfl hpath hstored hgraph
  have htaken : ∀ name ∈ ["calls", "ports"], seaport.NamesAlone "routes" name := by
    simp only [namesAlone_iff hgraph]
    decide +kernel
  have hkept : ∀ name ∈ ["_graphs", "owns", "owners", "ships", "flags"],
      ¬seaport.NamesAlone "routes" name := by
    simp only [namesAlone_iff hgraph]
    decide +kernel
  refine ⟨after, hhandle, hafter.graphs _, ?_, fun name hname => ?_, fun name hname => ?_⟩
  · rw [hafter.graphs, if_neg (by decide)]
    decide +kernel
  · exact hafter.taken name ⟨by decide, htaken name hname⟩
  · exact hafter.kept name fun h => hkept name hname h.2

end Server

end DocGraph
