import DocGraph.Graph
import DocGraph.Proofs.Outcome
import DocGraph.Proofs.Server.Moves
import DocGraph.Server.Catalog
/-!
# The collections that a graph names

A definition names the edge collections that were declared, and as document collections all others
that were, whether or not an edge collection connects them.  The server reads the same names from
the definition as it is sent.
-/

namespace DocGraph

open Outcome

namespace GraphDefinition

/-! ## Names of a definition -/

theorem mem_addName {names : List String} {name other : String} :
    other ∈ addName names name ↔ other ∈ names ∨ other = name := by
  unfold addName
  split
  · rename_i hmem
    constructor
    · exact Or.inl
    · rintro (h | rfl)
      · exact h
      · exact hmem
  · simp

theorem mem_foldl_addName {mentioned names : List String} {other : String} :
    other ∈ mentioned.foldl addName names ↔ other ∈ names ∨ other ∈ mentioned := by
  induction mentioned generalizing names with
  | nil => simp
  | cons name mentioned ih => rw [List.foldl_cons, ih, mem_addName, List.mem_cons, or_assoc]

theorem mem_vertexCollections {graph : GraphDefinition} {name : String} :
    name ∈ graph.vertexCollections ↔
      (∃ edge ∈ graph.edges, name ∈ edge.sources ∨ name ∈ edge.targets) ∨
        name ∈ graph.orphans := by
  unfold vertexCollections
  rw [mem_foldl_addName]
  simp

theorem mem_edgeCollections {graph : GraphDefinition} {name : String} :
    name ∈ graph.edgeCollections ↔ ∃ edge ∈ graph.edges, edge.collection = name := by
  simp [edgeCollections]

theorem connects_iff {edges : List EdgeDefinition} {name : String} :
    connects edges name = true ↔ ∃ edge ∈ edges, name ∈ edge.sources ∨ name ∈ edge.targets := by
  simp [connects]

/-! ## What is built from a declaration -/

namespace Draft

def edgeSchemas (draft : Draft) : List Schema := draft.edges.map (·.1)

def vertexSchemas (draft : Draft) : List Schema :=
  draft.edges.flatMap (fun edge => edge.2.1 ++ edge.2.2) ++ draft.vertices

theorem vertexName_eq_ok {graph name : String} {schema : Schema}
    (h : vertexName graph schema = .ok name) : name = schema.name := by
  unfold vertexName at h
  split at h
  · exact (Except.ok.inj h).symm
  · simp [invalid] at h

theorem mapM_vertexName_eq_ok {graph : String} {schemas : List Schema} {names : List String}
    (h : schemas.mapM (vertexName graph) = .ok names) : names = schemas.map (·.name) := by
  induction schemas generalizing names with
  | nil => exact (Except.ok.inj h).symm
  | cons schema schemas ih =>
      obtain ⟨name, rest, hname, hrest, rfl⟩ := mapM_cons_eq_ok_iff.1 h
      rw [vertexName_eq_ok hname, ih hrest, List.map_cons]

def definitionOf (edge : Schema × List Schema × List Schema) : EdgeDefinition :=
  ⟨edge.1.name, edge.2.1.map (·.name), edge.2.2.map (·.name)⟩

theorem buildEdges_eq_ok {graph : String} {done edges : List EdgeDefinition}
    {declared : List (Schema × List Schema × List Schema)}
    (h : buildEdges graph done declared = .ok edges) :
    edges = done ++ declared.map definitionOf := by
  induction declared generalizing done with
  | nil => simpa [buildEdges] using h.symm
  | cons head declared ih =>
      obtain ⟨edge, sources, targets⟩ := head
      simp only [buildEdges, invalid, error_bind] at h
      split at h
      · simp at h
      split at h
      · simp at h
      split at h
      · simp at h
      obtain ⟨sourceNames, hsources, h⟩ := bind_eq_ok_iff.1 h
      obtain ⟨targetNames, htargets, h⟩ := bind_eq_ok_iff.1 h
      rw [ih h, mapM_vertexName_eq_ok hsources, mapM_vertexName_eq_ok htargets]
      simp [definitionOf]

theorem mem_of_buildOrphans {graph name : String} {edges : List EdgeDefinition}
    {orphans built : List String} {vertices : List Schema}
    (h : buildOrphans graph edges orphans vertices = .ok built) :
    name ∈ built ↔
      name ∈ orphans ∨ (connects edges name = false ∧ ∃ vertex ∈ vertices, vertex.name = name) := by
  induction vertices generalizing orphans with
  | nil =>
      obtain rfl := Except.ok.inj h
      simp
  | cons vertex vertices ih =>
      obtain ⟨found, hfound, h⟩ := bind_eq_ok_iff.1 h
      obtain rfl := vertexName_eq_ok hfound
      rw [ih h]
      by_cases hconnected : connects edges vertex.name
      · rw [if_pos hconnected]
        simp only [List.mem_cons, exists_eq_or_imp]
        refine or_congr_right (and_congr_right fun hfree => ?_)
        refine (or_iff_right ?_).symm
        rintro rfl
        simp [hconnected] at hfree
      · rw [if_neg hconnected, mem_addName]
        simp only [List.mem_cons, exists_eq_or_imp]
        rw [or_assoc]
        refine or_congr_right ?_
        constructor
        · rintro (rfl | ⟨hfree, hmem⟩)
          · exact ⟨by simpa using hconnected, .inl rfl⟩
          · exact ⟨hfree, .inr hmem⟩
        · rintro ⟨hfree, rfl | hmem⟩
          · exact .inl rfl
          · exact .inr ⟨hfree, hmem⟩

variable {draft : Draft} {graph : GraphDefinition}

theorem build_eq_ok (h : draft.build = .ok graph) :
    graph.edges = draft.edges.map definitionOf ∧
      ∀ name, name ∈ graph.orphans ↔
        connects graph.edges name = false ∧ ∃ vertex ∈ draft.vertices, vertex.name = name := by
  obtain ⟨edges, hedges, h⟩ := bind_eq_ok_iff.1 h
  obtain ⟨orphans, horphans, h⟩ := bind_eq_ok_iff.1 h
  obtain rfl := Except.ok.inj h
  refine ⟨by simpa using buildEdges_eq_ok hedges, fun name => ?_⟩
  rw [mem_of_buildOrphans horphans]
  simp

theorem mem_edgeCollections_of_build (h : draft.build = .ok graph) {name : String} :
    name ∈ graph.edgeCollections ↔ ∃ schema ∈ draft.edgeSchemas, schema.name = name := by
  have hnames : graph.edgeCollections = draft.edgeSchemas.map (·.name) := by
    simp [edgeCollections, edgeSchemas, definitionOf, (build_eq_ok h).1]
  rw [hnames, List.mem_map]

theorem mem_vertexCollections_of_build (h : draft.build = .ok graph) {name : String} :
    name ∈ graph.vertexCollections ↔ ∃ schema ∈ draft.vertexSchemas, schema.name = name := by
  obtain ⟨hedges, horphans⟩ := build_eq_ok h
  rw [mem_vertexCollections, horphans, ← connects_iff]
  have hconnects : connects graph.edges name = true ↔
      ∃ schema ∈ draft.edges.flatMap (fun edge => edge.2.1 ++ edge.2.2), schema.name = name := by
    rw [connects_iff, hedges]
    simp only [List.mem_map, exists_exists_and_eq_and, definitionOf, List.mem_flatMap,
      List.mem_append]
    constructor
    · rintro ⟨edge, hedge, ⟨schema, hschema, hname⟩ | ⟨schema, hschema, hname⟩⟩
      · exact ⟨schema, ⟨edge, hedge, .inl hschema⟩, hname⟩
      · exact ⟨schema, ⟨edge, hedge, .inr hschema⟩, hname⟩
    · rintro ⟨schema, ⟨edge, hedge, hschema | hschema⟩, hname⟩
      · exact ⟨edge, hedge, .inl ⟨schema, hschema, hname⟩⟩
      · exact ⟨edge, hedge, .inr ⟨schema, hschema, hname⟩⟩
  unfold vertexSchemas
  simp only [List.mem_append, or_and_right, exists_or]
  rw [← hconnects]
  cases connects graph.edges name <;> simp

end Draft

end GraphDefinition

/-! ## What the server reads -/

namespace StoredDatabase

theorem namesIn_namesJson (names : List String) :
    namesIn (some (GraphDefinition.namesJson names)) = names := by
  unfold namesIn GraphDefinition.namesJson
  simp only [Option.bind_some, Json.asArray?, Option.getD_some]
  induction names with
  | nil => rfl
  | cons name names ih => simpa [Json.asString?] using ih

def edgeJson (edge : EdgeDefinition) : Json :=
  .ofMembers [
    ("collection", .string edge.collection),
    ("from", GraphDefinition.namesJson edge.sources),
    ("to", GraphDefinition.namesJson edge.targets)]

theorem edgeCollections_edgeJson (edge : EdgeDefinition) :
    edgeCollections (edgeJson edge) =
      (edge.collection, .edge) :: (edge.sources ++ edge.targets).map (·, .document) := by
  have hmember (name : String) : (edgeJson edge).member? name = Assoc.get? name [
      ("collection", .string edge.collection),
      ("from", GraphDefinition.namesJson edge.sources),
      ("to", GraphDefinition.namesJson edge.targets)] := Json.member?_ofMembers (by simp) name
  simp [edgeCollections, hmember, Assoc.get?, namesIn_namesJson, Json.asString?]

/-- The server reads just the collections that a definition names. -/
theorem graphCollections_toJson (graph : GraphDefinition) :
    graphCollections graph.toJson =
      graph.edges.flatMap (fun edge =>
        (edge.collection, .edge) :: (edge.sources ++ edge.targets).map (·, .document)) ++
        graph.orphans.map (·, .document) := by
  have hmember (name : String) : graph.toJson.member? name = Assoc.get? name [
      ("name", .string graph.name),
      ("edgeDefinitions", .array (graph.edges.map edgeJson)),
      ("orphanCollections", GraphDefinition.namesJson graph.orphans)] :=
    Json.member?_ofMembers (by simp) name
  simp [graphCollections, hmember, Assoc.get?, namesIn_namesJson, Json.asArray?,
    List.flatMap_map, edgeCollections_edgeJson]

theorem name_mem_of_mem_graphCollections {graph : GraphDefinition}
    {named : String × CollectionType} (h : named ∈ graphCollections graph.toJson) :
    named.1 ∈ graph.vertexCollections ∨ named.1 ∈ graph.edgeCollections := by
  rw [GraphDefinition.mem_vertexCollections, GraphDefinition.mem_edgeCollections]
  rw [graphCollections_toJson, List.mem_append, List.mem_flatMap] at h
  rcases h with ⟨edge, hedge, h⟩ | h
  · rcases List.mem_cons.1 h with rfl | h
    · exact .inr ⟨edge, hedge, rfl⟩
    · obtain ⟨name, hname, rfl⟩ := List.mem_map.1 h
      exact .inl (.inl ⟨edge, hedge, List.mem_append.1 hname⟩)
  · obtain ⟨name, hname, rfl⟩ := List.mem_map.1 h
    exact .inl (.inr hname)

end StoredDatabase

end DocGraph
