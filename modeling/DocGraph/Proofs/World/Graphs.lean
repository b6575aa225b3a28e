import DocGraph.Proofs.World.Ensured
/-!
# Making sure of a graph

A client makes sure of the document collections of a graph, then of its edge collections, then of
the graph itself.  It gets to the end if every collection that is there has the type it is asked
for, and then finds everything in place when it comes again.
-/

namespace DocGraph

/-! ## Databases that a graph fits in -/

namespace StoredDatabase

/-- A collection of a name is missing or has a type. -/
def Fits (stored : StoredDatabase) (name : String) (type : CollectionType) : Prop :=
  ∀ found ∈ stored.collections.get? name, found.type = type

instance (stored : StoredDatabase) (name : String) (type : CollectionType) :
    Decidable (stored.Fits name type) :=
  inferInstanceAs (Decidable (∀ found ∈ stored.collections.get? name, found.type = type))

variable {stored : StoredDatabase} {graph : GraphDefinition} {name other : String}
  {type : CollectionType}

theorem Fits.of_mem {found : StoredCollection} (h : found ∈ stored.collections.get? name)
    (htype : found.type.number = type.number) : stored.Fits name type := by
  intro other hother
  obtain rfl := Option.mem_unique h hother
  exact CollectionType.number_injective htype

theorem fits_ensure : (stored.ensure name type).Fits other type ↔ stored.Fits other type := by
  unfold Fits
  rw [get?_ensure]
  cases stored.collections.get? other with
  | some found => simp
  | none =>
      by_cases hother : other = name
      · simp [hother, StoredCollection.created, StoredCollection.empty]
      · simp [hother]

theorem get?_eq_some_of_ensure {found : StoredCollection}
    (h : (stored.ensure name type).collections.get? other = some found)
    (htype : found.type ≠ type) : stored.collections.get? other = some found := by
  rw [get?_ensure, Option.or_eq_some_iff] at h
  rcases h with h | ⟨_, h⟩
  · exact h
  · obtain ⟨_, hcreated⟩ := Option.ite_none_right_eq_some.1 h
    obtain rfl := Option.some.inj hcreated
    exact absurd rfl htype

theorem ensureAll_of_present {names : List String}
    (h : ∀ name ∈ names, (stored.collections.get? name).isSome) :
    stored.ensureAll names type = stored := by
  induction names with
  | nil => rfl
  | cons name names ih =>
      obtain ⟨hname, hnames⟩ := List.forall_mem_cons.1 h
      obtain ⟨found, hfound⟩ := Option.isSome_iff_exists.1 hname
      show (stored.ensure name type).ensureAll names type = stored
      rw [ensure_of_some hfound, ih hnames]

def withCollections (stored : StoredDatabase) (graph : GraphDefinition) : StoredDatabase :=
  (stored.ensureAll graph.vertexCollections .document).ensureAll graph.edgeCollections .edge

def putGraph (stored : StoredDatabase) (graph : GraphDefinition) : StoredDatabase :=
  match stored.graphs.get? graph.name with
  | some _ => stored
  | none => { stored with graphs := stored.graphs.insert graph.name graph.toJson }

def withGraph (stored : StoredDatabase) (graph : GraphDefinition) : StoredDatabase :=
  (stored.withCollections graph).putGraph graph

theorem get?_withCollections (stored : StoredDatabase) (graph : GraphDefinition)
    (name : String) :
    (stored.withCollections graph).collections.get? name =
      (stored.collections.get? name).or
        (if name ∈ graph.vertexCollections then some (.created name .document)
        else if name ∈ graph.edgeCollections then some (.created name .edge) else none) := by
  rw [withCollections, get?_ensureAll, get?_ensureAll, Option.or_assoc]
  congr 1
  split <;> simp

theorem present_withCollections (stored : StoredDatabase) (graph : GraphDefinition)
    (h : name ∈ graph.vertexCollections ∨ name ∈ graph.edgeCollections) :
    ((stored.withCollections graph).collections.get? name).isSome := by
  rw [get?_withCollections, Option.isSome_or]
  rcases h with h | h
  · simp [h]
  · split <;> simp

@[simp] theorem collections_putGraph (stored : StoredDatabase) (graph : GraphDefinition) :
    (stored.putGraph graph).collections = stored.collections := by
  unfold putGraph
  split <;> rfl

@[simp] theorem lastKey_putGraph (stored : StoredDatabase) (graph : GraphDefinition) :
    (stored.putGraph graph).lastKey = stored.lastKey := by
  unfold putGraph
  split <;> rfl

theorem get?_graphs_putGraph (stored : StoredDatabase) (graph : GraphDefinition)
    (name : String) :
    (stored.putGraph graph).graphs.get? name =
      (stored.graphs.get? name).or (if name = graph.name then some graph.toJson else none) := by
  unfold putGraph
  split
  · rename_i known hknown
    by_cases hname : name = graph.name
    · rw [hname, hknown]
      rfl
    · rw [if_neg hname, Option.or_none]
  · rename_i hfree
    rw [Table.get?_insert]
    by_cases hname : name = graph.name
    · rw [if_pos hname.symm, if_pos hname, hname, hfree]
      rfl
    · rw [if_neg (Ne.symm hname), if_neg hname, Option.or_none]

@[simp] theorem graphs_withCollections (stored : StoredDatabase) (graph : GraphDefinition) :
    (stored.withCollections graph).graphs = stored.graphs := by
  simp [withCollections]

@[simp] theorem lastKey_withGraph (stored : StoredDatabase) (graph : GraphDefinition) :
    (stored.withGraph graph).lastKey = stored.lastKey := by
  simp [withGraph, withCollections]

theorem get?_withGraph (stored : StoredDatabase) (graph : GraphDefinition) (name : String) :
    (stored.withGraph graph).collections.get? name =
      (stored.collections.get? name).or
        (if name ∈ graph.vertexCollections then some (.created name .document)
        else if name ∈ graph.edgeCollections then some (.created name .edge) else none) := by
  rw [withGraph, collections_putGraph, get?_withCollections]

theorem get?_graphs_withGraph (stored : StoredDatabase) (graph : GraphDefinition)
    (name : String) :
    (stored.withGraph graph).graphs.get? name =
      (stored.graphs.get? name).or (if name = graph.name then some graph.toJson else none) := by
  rw [withGraph, get?_graphs_putGraph, graphs_withCollections]

theorem ensureAll_vertices_withGraph (stored : StoredDatabase) (graph : GraphDefinition) :
    (stored.withGraph graph).ensureAll graph.vertexCollections .document =
      stored.withGraph graph := by
  refine ensureAll_of_present fun name hname => ?_
  rw [withGraph, collections_putGraph]
  exact present_withCollections stored graph (.inl hname)

theorem ensureAll_edges_withGraph (stored : StoredDatabase) (graph : GraphDefinition) :
    (stored.withGraph graph).ensureAll graph.edgeCollections .edge = stored.withGraph graph := by
  refine ensureAll_of_present fun name hname => ?_
  rw [withGraph, collections_putGraph]
  exact present_withCollections stored graph (.inr hname)

theorem withGraph_withGraph (stored : StoredDatabase) (graph : GraphDefinition) :
    (stored.withGraph graph).withGraph graph = stored.withGraph graph := by
  have hcollections : (stored.withGraph graph).withCollections graph =
      stored.withGraph graph := by
    rw [withCollections, ensureAll_vertices_withGraph, ensureAll_edges_withGraph]
  have hgraph : ∃ known, (stored.withGraph graph).graphs.get? graph.name = some known := by
    refine Option.isSome_iff_exists.1 ?_
    rw [get?_graphs_withGraph, Option.isSome_or]
    simp
  obtain ⟨known, hknown⟩ := hgraph
  show ((stored.withGraph graph).withCollections graph).putGraph graph = _
  rw [hcollections, putGraph, hknown]

end StoredDatabase

/-! ## Collection after collection -/

namespace Database

variable {draw : Nat → String} {database : Database} {host : Host} {stored : StoredDatabase}
  {name : String} {type : CollectionType}

theorem run_ensureNamed_of_fits
    (hready : host.Ready database.config.database stored)
    (hfits : stored.Fits name type) :
    (database.ensureNamed name type).run.run (Host.answerFrom draw) host =
      (.ok (), host.putDatabase database.config.database (stored.ensure name type)) := by
  rw [run_ensureNamed, Exchange.run_ask (Host.answerFrom_lookup hready name)]
  cases hname : stored.collections.get? name with
  | some found =>
      rw [afterLookup_of_some database hname, if_pos (hfits found hname),
        StoredDatabase.ensure_of_some hname, Host.putDatabase_eq_self hready.known]
      rfl
  | none =>
      rw [afterLookup_of_none database hname, creation,
        Exchange.run_ask (Host.answerFrom_creation hready name type),
        received_creation, hname]
      rfl

theorem run_ensureNamed_of_other
    (hready : host.Ready database.config.database stored)
    {found : StoredCollection} (hname : stored.collections.get? name = some found)
    (htype : found.type ≠ type) :
    (database.ensureNamed name type).run.run (Host.answerFrom draw) host =
      (.error (.collectionType name type.name found.type.name), host) := by
  rw [run_ensureNamed, Exchange.run_ask (Host.answerFrom_lookup hready name),
    afterLookup_of_some database hname, if_neg htype]
  rfl

def ensureEach (database : Database) (names : List String) (type : CollectionType) :
    Client Unit :=
  names.forM fun name => database.ensureNamed name type

theorem ensureEach_cons (database : Database) (name : String) (names : List String)
    (type : CollectionType) :
    database.ensureEach (name :: names) type =
      (database.ensureNamed name type >>= fun _ => database.ensureEach names type) := rfl

theorem run_ensureEach_of_fits {names : List String}
    (hready : host.Ready database.config.database stored)
    (hfits : ∀ name ∈ names, stored.Fits name type) :
    (database.ensureEach names type).run.run (Host.answerFrom draw) host =
      (.ok (), host.putDatabase database.config.database (stored.ensureAll names type)) := by
  induction names generalizing host stored with
  | nil => exact congrArg _ (Host.putDatabase_eq_self hready.known).symm
  | cons name names ih =>
      -- What was made for one name leaves every other name as fitting as it was.
      obtain ⟨hname, hnames⟩ := List.forall_mem_cons.1 hfits
      have hrest := ih (hready.putDatabase (stored.ensure name type))
        fun other hother => StoredDatabase.fits_ensure.2 (hnames other hother)
      rw [ensureEach_cons,
        Client.run_bind_of_ok (run_ensureNamed_of_fits hready hname), hrest,
        Host.putDatabase_putDatabase]
      rfl

theorem run_ensureEach_of_other {names : List String}
    (hready : host.Ready database.config.database stored)
    (hother : ∃ name ∈ names, ¬ stored.Fits name type) :
    ∃ name ∈ names, ∃ found, stored.collections.get? name = some found ∧ found.type ≠ type ∧
      ((database.ensureEach names type).run.run (Host.answerFrom draw) host).1 =
        .error (.collectionType name type.name found.type.name) := by
  induction names generalizing host stored with
  | nil => simp at hother
  | cons name names ih =>
      rw [ensureEach_cons]
      by_cases hname : stored.Fits name type
      · have hnames : ∃ other ∈ names, ¬ (stored.ensure name type).Fits other type := by
          obtain ⟨other, hmem, hother⟩ := hother
          obtain rfl | hmem := List.mem_cons.1 hmem
          · exact absurd hname hother
          · exact ⟨other, hmem, mt StoredDatabase.fits_ensure.1 hother⟩
        obtain ⟨other, hmem, found, hfound, htype, hrun⟩ :=
          ih (hready.putDatabase (stored.ensure name type)) hnames
        rw [Client.run_bind_of_ok (run_ensureNamed_of_fits hready hname)]
        exact ⟨other, List.mem_cons_of_mem _ hmem, found,
          StoredDatabase.get?_eq_some_of_ensure hfound htype, htype, hrun⟩
      · unfold StoredDatabase.Fits at hname
        push Not at hname
        obtain ⟨found, hfound, htype⟩ := hname
        refine ⟨name, List.mem_cons_self, found, hfound, htype, ?_⟩
        rw [Client.run_bind_of_error (run_ensureNamed_of_other hready hfound htype)]

/-! ## The graph itself -/

variable {graph : GraphDefinition}

def ensureDefinition (database : Database) (graph : GraphDefinition) : Client Unit := do
  let what := "graph " ++ graph.name
  let lookup := Request.plain .get (database.path ["gharial", graph.name])
  match ← (Client.send lookup what).attempt with
  | .ok _ => return ()
  | .error (.notFound ..) =>
    let _ ← Client.send ⟨.post, database.path ["gharial"], [], some graph.toJson⟩ what
  | .error error => throw error

theorem ensureGraph_eq (database : Database) (graph : GraphDefinition) :
    database.ensureGraph graph =
      (database.ensureEach graph.vertexCollections .document >>= fun _ =>
        database.ensureEach graph.edgeCollections .edge >>= fun _ =>
          database.ensureDefinition graph) := rfl

theorem run_ensureDefinition (hready : host.Ready database.config.database stored)
    (hpresent : ∀ name, name ∈ graph.vertexCollections ∨ name ∈ graph.edgeCollections →
      (stored.collections.get? name).isSome) :
    (database.ensureDefinition graph).run.run (Host.answerFrom draw) host =
      (.ok (), host.putDatabase database.config.database (stored.putGraph graph)) := by
  have hlookup : host.answerFrom draw (.plain .get (database.path ["gharial", graph.name])) =
      host.ruled database.config.database (stored.readGraph graph.name) :=
    Host.answerFrom_of_ruling hready rfl fun _ => rfl
  rw [stored.readGraph_eq] at hlookup
  unfold ensureDefinition
  rw [Client.run_attempt_send_bind, StoredDatabase.putGraph]
  cases hknown : stored.graphs.get? graph.name with
  | some known =>
      rw [hknown] at hlookup
      rw [Exchange.run_ask hlookup, Host.putDatabase_eq_self hready.known]
      rfl
  | none =>
      have hcreation : host.answerFrom draw
          ⟨.post, database.path ["gharial"], [], some graph.toJson⟩ =
          host.ruled database.config.database (stored.createGraph (some graph.toJson)) :=
        Host.answerFrom_of_ruling hready rfl fun _ => rfl
      obtain ⟨body, hcreated⟩ := stored.createGraph_eq graph hpresent hknown
      rw [hcreated] at hcreation
      have hmissing : Refusal.graphNotFound.describe.1 = 404 := rfl
      obtain ⟨cause, hcheck⟩ := Refusal.check_of_not_found hmissing ("graph " ++ graph.name)
      have hreceived : Client.received ("graph " ++ graph.name)
          (.ok Refusal.graphNotFound.response) =
            .error (.notFound ("graph " ++ graph.name) cause) := hcheck
      rw [hknown] at hlookup
      rw [Exchange.run_ask hlookup, hreceived]
      dsimp only
      rw [Client.run_send_bind, Exchange.run_ask hcreation]
      rfl

/-! ## The whole graph -/

theorem run_ensureGraph (draw : Nat → String)
    (hready : host.Ready database.config.database stored)
    (hvertices : ∀ name ∈ graph.vertexCollections, stored.Fits name .document)
    (hedges : ∀ name ∈ graph.edgeCollections,
      (stored.ensureAll graph.vertexCollections .document).Fits name .edge) :
    (database.ensureGraph graph).run.run (Host.answerFrom draw) host =
      (.ok (), host.putDatabase database.config.database (stored.withGraph graph)) := by
  have hdocuments := hready.putDatabase (stored.ensureAll graph.vertexCollections .document)
  have hcollections := hdocuments.putDatabase (stored.withCollections graph)
  rw [ensureGraph_eq, Client.run_bind_of_ok (run_ensureEach_of_fits hready hvertices),
    Client.run_bind_of_ok (run_ensureEach_of_fits hdocuments hedges)]
  refine (run_ensureDefinition hcollections fun name h =>
    stored.present_withCollections graph h).trans ?_
  simp only [Host.putDatabase_putDatabase]
  rfl

theorem run_ensureGraph_of_other (draw : Nat → String)
    (hready : host.Ready database.config.database stored)
    (hvertices : ∀ name ∈ graph.vertexCollections, stored.Fits name .document)
    (hother : ∃ name ∈ graph.edgeCollections,
      ¬ (stored.ensureAll graph.vertexCollections .document).Fits name .edge) :
    ∃ name ∈ graph.edgeCollections,
      (∃ found ∈ (stored.ensureAll graph.vertexCollections .document).collections.get? name,
        found.type = .document) ∧
      ((database.ensureGraph graph).run.run (Host.answerFrom draw) host).1 =
        .error (.collectionType name "edge" "document") := by
  obtain ⟨name, hname, found, hfound, htype, hrun⟩ :=
    run_ensureEach_of_other (hready.putDatabase _) hother
  have hdocument : found.type = .document := by
    cases hkind : found.type with
    | document => rfl
    | edge => exact absurd hkind htype
  refine ⟨name, hname, ⟨found, hfound, hdocument⟩, ?_⟩
  rw [ensureGraph_eq, Client.run_bind_of_ok (run_ensureEach_of_fits hready hvertices),
    Client.run_bind_of_error (Prod.ext hrun rfl), hdocument]
  rfl

/-- What a client that made sure of a graph leaves behind. -/
structure Established (graph : GraphDefinition) (before after : StoredDatabase) : Prop where
  vertices : ∀ name ∈ graph.vertexCollections,
    ∃ found ∈ after.collections.get? name, found.type.number = 2
  edges : ∀ name ∈ graph.edgeCollections,
    ∃ found ∈ after.collections.get? name, found.type.number = 3
  known : (after.graphs.get? graph.name).isSome
  /-- A collection that was there keeps its documents and everything else. -/
  kept : ∀ name, ∀ found ∈ before.collections.get? name, found ∈ after.collections.get? name
  added : ∀ name, ∀ found ∈ after.collections.get? name, before.collections.get? name = none →
    (name ∈ graph.vertexCollections ∨ name ∈ graph.edgeCollections) ∧
      found.documents = Table.empty ∧ found.indexes = []
  graphsKept : ∀ name, ∀ known ∈ before.graphs.get? name, known ∈ after.graphs.get? name
  graphsAdded : ∀ name ≠ graph.name, after.graphs.get? name = before.graphs.get? name
  lastKey : after.lastKey = before.lastKey

theorem established_withGraph
    (hdisjoint : ∀ name ∈ graph.vertexCollections, name ∉ graph.edgeCollections)
    (hvertices : ∀ name ∈ graph.vertexCollections, stored.Fits name .document)
    (hedges : ∀ name ∈ graph.edgeCollections, stored.Fits name .edge) :
    Established graph stored (stored.withGraph graph) where
  vertices name hname := by
    rw [stored.get?_withGraph, if_pos hname]
    cases hfound : stored.collections.get? name with
    | some found => exact ⟨found, rfl, by rw [hvertices name hname found hfound]; rfl⟩
    | none => exact ⟨_, rfl, rfl⟩
  edges name hname := by
    have hvertex : name ∉ graph.vertexCollections := fun h => hdisjoint name h hname
    rw [stored.get?_withGraph, if_neg hvertex, if_pos hname]
    cases hfound : stored.collections.get? name with
    | some found => exact ⟨found, rfl, by rw [hedges name hname found hfound]; rfl⟩
    | none => exact ⟨_, rfl, rfl⟩
  known := by
    rw [stored.get?_graphs_withGraph, Option.isSome_or]
    simp
  kept name found hfound := by
    rw [stored.get?_withGraph, Option.mem_def.1 hfound]
    rfl
  added name found hfound hmissing := by
    rw [stored.get?_withGraph, hmissing, Option.none_or] at hfound
    split at hfound
    · obtain rfl := Option.some.inj hfound
      exact ⟨.inl ‹_›, rfl, rfl⟩
    · obtain ⟨hedge, hfound⟩ := Option.mem_ite_none_right.1 hfound
      obtain rfl := Option.some.inj hfound
      exact ⟨.inr hedge, rfl, rfl⟩
  graphsKept name known hknown := by
    rw [stored.get?_graphs_withGraph, Option.mem_def.1 hknown]
    rfl
  graphsAdded name hname := by
    rw [stored.get?_graphs_withGraph, if_neg hname, Option.or_none]
  lastKey := stored.lastKey_withGraph graph

/-- Making sure of a graph gets to its end and leaves everything else as it was; doing it again
changes nothing. -/
theorem ensureGraph_converges (hready : host.Ready database.config.database stored)
    (hdisjoint : ∀ name ∈ graph.vertexCollections, name ∉ graph.edgeCollections)
    (hvertices : ∀ name ∈ graph.vertexCollections, stored.Fits name .document)
    (hedges : ∀ name ∈ graph.edgeCollections, stored.Fits name .edge) :
    ∃ after,
      let settled := host.putDatabase database.config.database after
      (database.ensureGraph graph).run.run (Host.answerFrom draw) host = (.ok (), settled) ∧
      Established graph stored after ∧
      (database.ensureGraph graph).run.run (Host.answerFrom draw) settled = (.ok (), settled) := by
  have hcreated : ∀ name ∈ graph.edgeCollections,
      (stored.ensureAll graph.vertexCollections .document).Fits name .edge := by
    intro name hname found hfound
    rw [StoredDatabase.get?_ensureAll, if_neg fun h => hdisjoint name h hname,
      Option.or_none] at hfound
    exact hedges name hname found hfound
  have hestablished := established_withGraph hdisjoint hvertices hedges
  refine ⟨stored.withGraph graph, run_ensureGraph draw hready hvertices hcreated, hestablished, ?_⟩
  rw [run_ensureGraph draw (hready.putDatabase _), Host.putDatabase_putDatabase,
    StoredDatabase.withGraph_withGraph]
  · intro name hname
    obtain ⟨found, hfound, htype⟩ := hestablished.vertices name hname
    exact .of_mem hfound htype
  · intro name hname
    rw [StoredDatabase.ensureAll_vertices_withGraph]
    obtain ⟨found, hfound, htype⟩ := hestablished.edges name hname
    exact .of_mem hfound htype

def routes : GraphDefinition :=
  ⟨"routes", [⟨"calls", ["ships"], ["ports", "ships"]⟩, ⟨"owns", ["owners"], ["ships"]⟩], ["flags"]⟩

def harbour : StoredDatabase :=
  { StoredDatabase.new with
    collections := StoredDatabase.new.collections.insert "ships"
      ⟨.document, false, Table.ofList [("1", [("name", .string "Argo")])], []⟩ }

theorem ensureGraph_converges_routes :
    ∃ after,
      let before := Host.putDatabase ⟨Server.new ["_system"], [], 0⟩ "_system" harbour
      let settled := before.putDatabase "_system" after
      ((⟨Config.default, Registry.empty⟩ : Database).ensureGraph routes).run.run
        (Host.answerFrom Host.revision) before = (.ok (), settled) ∧
      Established routes harbour after ∧
      ((⟨Config.default, Registry.empty⟩ : Database).ensureGraph routes).run.run
        (Host.answerFrom Host.revision) settled = (.ok (), settled) :=
  ensureGraph_converges ⟨rfl, rfl⟩ (by decide) (by decide) (by decide)

/-! ## Graphs as they are built -/

open GraphDefinition.Draft in
/-- A graph that was built can be created unless a name is declared both for edges and for
documents; then the client is told that it made the collection with the other type. -/
theorem ensureGraph_of_build {draft : GraphDefinition.Draft} (hbuild : draft.build = .ok graph)
    (hready : host.Ready database.config.database stored)
    (hmissing : ∀ name ∈ graph.vertexCollections ++ graph.edgeCollections,
      stored.collections.get? name = none) :
    let result := ((database.ensureGraph graph).run.run (Host.answerFrom draw) host).1
    (result = .ok () ↔
      ∀ edge ∈ draft.edgeSchemas, ∀ vertex ∈ draft.vertexSchemas, vertex.name ≠ edge.name) ∧
    (result = .ok () ∨
      ∃ edge ∈ draft.edgeSchemas, ∃ vertex ∈ draft.vertexSchemas, vertex.name = edge.name ∧
        result = .error (.collectionType edge.name "edge" "document")) := by
  have hvertices : ∀ name ∈ graph.vertexCollections, stored.Fits name .document := by
    intro name hname found hfound
    rw [hmissing name (List.mem_append_left _ hname)] at hfound
    cases hfound
  have hfits {name : String} (hname : name ∈ graph.edgeCollections) :
      (stored.ensureAll graph.vertexCollections .document).Fits name .edge ↔
        name ∉ graph.vertexCollections := by
    unfold StoredDatabase.Fits
    rw [StoredDatabase.get?_ensureAll, hmissing name (List.mem_append_right _ hname),
      Option.none_or]
    by_cases hvertex : name ∈ graph.vertexCollections
    · simp [hvertex, StoredCollection.created, StoredCollection.empty]
    · simp [hvertex]
  -- A shared name holds documents by the time that its edge collection is looked up.
  by_cases hshared : ∃ name ∈ graph.edgeCollections, name ∈ graph.vertexCollections
  · obtain ⟨name, hname, hvertex⟩ := hshared
    obtain ⟨shared, hedge, ⟨found, hfound, hdocument⟩, hrun⟩ :=
      run_ensureGraph_of_other draw hready hvertices
        ⟨name, hname, fun h => (hfits hname).1 h hvertex⟩
    have hboth : shared ∈ graph.vertexCollections := by
      by_contra hfree
      have hkind := (hfits hedge).2 hfree found hfound
      rw [hdocument] at hkind
      cases hkind
    obtain ⟨edge, hdeclared, rfl⟩ := (mem_edgeCollections_of_build hbuild).1 hedge
    obtain ⟨vertex, halso, hsame⟩ := (mem_vertexCollections_of_build hbuild).1 hboth
    refine ⟨⟨fun hok => ?_, fun hdistinct => ?_⟩,
      .inr ⟨edge, hdeclared, vertex, halso, hsame, hrun⟩⟩
    · cases hrun.symm.trans hok
    · exact absurd hsame (hdistinct edge hdeclared vertex halso)
  · have hrun := run_ensureGraph draw hready hvertices fun name hname =>
      (hfits hname).2 fun hvertex => hshared ⟨name, hname, hvertex⟩
    have hok := congrArg Prod.fst hrun
    refine ⟨⟨fun _ edge hedge vertex hvertex hsame => hshared ⟨edge.name, ?_, ?_⟩, fun _ => hok⟩,
      .inl hok⟩
    · exact (mem_edgeCollections_of_build hbuild).2 ⟨edge, hedge, rfl⟩
    · exact (mem_vertexCollections_of_build hbuild).2 ⟨vertex, hvertex, hsame⟩

def acquaintances (people : Schema) : GraphDefinition.Draft :=
  ⟨"acquaintances", [(⟨"knows", .edge, [], false, []⟩, [people], [people])], []⟩

def acquaintancesOf (people : String) : GraphDefinition :=
  ⟨"acquaintances", [⟨"knows", [people], [people]⟩], []⟩

def ensureOnNew (graph : GraphDefinition) : Except Error Unit × Host :=
  ((⟨Config.default, Registry.empty⟩ : Database).ensureGraph graph).run.run
    (Host.answerFrom Host.revision) ⟨Server.new ["_system"], [], 0⟩

theorem ensureGraph_of_build_people :
    let people : Schema := ⟨"people", .document, [], false, []⟩
    (acquaintances people).build = .ok (acquaintancesOf "people") ∧
      (ensureOnNew (acquaintancesOf "people")).1 = .ok () := by
  intro people
  have hbuild : (acquaintances people).build = .ok (acquaintancesOf "people") := rfl
  have hready : Host.Ready ⟨Server.new ["_system"], [], 0⟩ Config.default.database
      StoredDatabase.new := ⟨rfl, rfl⟩
  exact ⟨hbuild, (ensureGraph_of_build hbuild hready (by decide)).1.2 (by decide)⟩

/-- A name for both edges and documents gets past the builder, and past no server. -/
theorem not_ensureGraph_of_build_shared :
    let knows : Schema := ⟨"knows", .document, [], false, []⟩
    knows.build = .ok knows ∧ (acquaintances knows).build = .ok (acquaintancesOf "knows") ∧
      (∀ name ∈ (acquaintancesOf "knows").vertexCollections ++
        (acquaintancesOf "knows").edgeCollections,
          StoredDatabase.new.collections.get? name = none) ∧
      StoredDatabase.new.graphs.get? "acquaintances" = none ∧
      (ensureOnNew (acquaintancesOf "knows")).1 =
        .error (.collectionType "knows" "edge" "document") :=
  ⟨by rfl, by rfl, by decide, rfl, by decide +kernel⟩

end Database

end DocGraph
