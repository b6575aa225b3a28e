import DocGraph.Error
import DocGraph.Json.Reader
import DocGraph.Schema.Basic
/-!
# Graphs

A graph is defined by its edge collections, each with the collections its edges leave and reach,
and by document collections that no edge collection touches.
-/

namespace DocGraph

structure EdgeDefinition where
  collection : String
  sources : List String
  targets : List String
deriving DecidableEq

structure GraphDefinition where
  name : String
  edges : List EdgeDefinition
  orphans : List String
deriving DecidableEq

/-- A declaration that a graph is built from. -/
structure GraphDefinition.Draft where
  name : String
  edges : List (Schema × List Schema × List Schema)
  vertices : List Schema

namespace GraphDefinition

def addName (names : List String) (name : String) : List String :=
  if name ∈ names then names else names ++ [name]

/-- The document collections, each once, in the order of their first mention. -/
def vertexCollections (graph : GraphDefinition) : List String :=
  ((graph.edges.flatMap fun edge => edge.sources ++ edge.targets) ++ graph.orphans).foldl
    addName []

def edgeCollections (graph : GraphDefinition) : List String :=
  graph.edges.map (·.collection)

def connects (edges : List EdgeDefinition) (vertex : String) : Bool :=
  edges.any fun edge => edge.sources.contains vertex || edge.targets.contains vertex

namespace Draft

def invalid {α : Type} (graph reason : String) : Except Error α :=
  .error (.invalidSchema ("graph " ++ graph ++ ": " ++ reason))

def vertexName (graph : String) (schema : Schema) : Except Error String :=
  if schema.kind = .document then .ok schema.name
  else invalid graph (schema.name ++ " is not a document collection")

def buildEdges (graph : String) (done : List EdgeDefinition) :
    List (Schema × List Schema × List Schema) → Except Error (List EdgeDefinition)
  | [] => .ok done
  | (edge, sources, targets) :: rest => do
    if !edge.isEdge then invalid graph (edge.name ++ " is not an edge collection")
    if done.any fun definition => definition.collection == edge.name then
      invalid graph ("edge collection " ++ edge.name ++ " declared twice")
    if sources.isEmpty || targets.isEmpty then
      invalid graph ("edge collection " ++ edge.name ++ " connects nothing")
    let sources ← sources.mapM (vertexName graph)
    let targets ← targets.mapM (vertexName graph)
    buildEdges graph (done ++ [⟨edge.name, sources, targets⟩]) rest

def buildOrphans (graph : String) (edges : List EdgeDefinition) (orphans : List String) :
    List Schema → Except Error (List String)
  | [] => .ok orphans
  | vertex :: rest => do
    let name ← vertexName graph vertex
    buildOrphans graph edges (if connects edges name then orphans else addName orphans name) rest

def build (draft : Draft) : Except Error GraphDefinition := do
  let edges ← buildEdges draft.name [] draft.edges
  return ⟨draft.name, edges, ← buildOrphans draft.name edges [] draft.vertices⟩

end Draft

def namesJson (names : List String) : Json := .array (names.map .string)

def toJson (graph : GraphDefinition) : Json :=
  .ofMembers [
    ("name", .string graph.name),
    ("edgeDefinitions", .array (graph.edges.map fun edge => .ofMembers [
      ("collection", .string edge.collection),
      ("from", namesJson edge.sources),
      ("to", namesJson edge.targets)])),
    ("orphanCollections", namesJson graph.orphans)]

open Json in
def readEdge {σ : Type} [Readable σ] (s : σ) : Option EdgeDefinition := do
  let fields ← Read.fields ["collection", "from", "to"] s
  return ⟨← fields.required "collection" Read.string,
    ← fields.required "from" (Read.list Read.string),
    ← fields.required "to" (Read.list Read.string)⟩

open Json in
def read {σ : Type} [Readable σ] (s : σ) : Option GraphDefinition := do
  let fields ← Read.fields ["name", "edgeDefinitions", "orphanCollections"] s
  return ⟨← fields.required "name" Read.string,
    ← fields.required "edgeDefinitions" (Read.list readEdge),
    ← fields.withDefault "orphanCollections" [] (Read.list Read.string)⟩

end GraphDefinition

end DocGraph
