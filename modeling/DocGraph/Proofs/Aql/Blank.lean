import DocGraph.Proofs.Aql.Stepwise
import DocGraph.Proofs.Assoc
/-!
# Texts do not depend on data

A query and its blanked form compile to the same program with the same parameters; only the values
of the parameters differ.  So two queries that are built alike from different data have the same
text: nothing that a caller supplies as data can reach it.
-/

namespace DocGraph

namespace Aql

/-- The second step does what the first one does whenever the same parameters are bound before;
it may bind other values. -/
def Compile.Mirrored {α : Type} (first second : Compile α) : Prop :=
  ∀ bound bound' a after, bound.map Prod.fst = bound'.map Prod.fst →
    first.run bound = .ok (a, after) →
      ∃ after', second.run bound' = .ok (a, after') ∧ after.map Prod.fst = after'.map Prod.fst

theorem stepwise_mirrored : Stepwise fun _ => Compile.Mirrored where
  of_pure := by
    intro α a bound bound' b after hbound h
    obtain ⟨rfl, rfl⟩ := run_pure_eq_ok_iff.1 h
    exact ⟨bound', rfl, hbound⟩
  of_throw := by
    intro α error second bound bound' a after _ h
    cases h
  bind := by
    intro α β first second next next' hfirst hnext bound bound' b after hbound h
    obtain ⟨a, middle, ha, h⟩ := run_bind_eq_ok_iff.1 h
    obtain ⟨middle', ha', hmiddle⟩ := hfirst _ _ _ _ hbound ha
    obtain ⟨after', hb, hafter⟩ := hnext a _ _ _ _ hmiddle h
    exact ⟨after', run_bind_eq_ok_iff.2 ⟨a, middle', ha', hb⟩, hafter⟩
  of_bind := by
    intro kind value value' bound bound' parameter after hbound h
    have hcount : ∀ entries : Bound,
        (entries.filter fun entry => entry.1.kind == kind).length
          = ((entries.map Prod.fst).filter fun p => p.kind == kind).length := by
      intro entries
      rw [List.filter_map, List.length_map]
      rfl
    obtain ⟨rfl, rfl⟩ := Prod.mk.inj (Except.ok.inj h)
    rw [hcount, hbound, ← hcount]
    exact ⟨_, rfl, by simp [hbound]⟩

theorem compileQuery_blank (query : Query) :
    (compileQuery query).Mirrored (compileQuery query.blank) :=
  stepwise_mirrored.compileQuery_related query

end Aql

/-! ## Queries -/

namespace Query

/-- A query and its blanked form have the same text and the same parameters. -/
theorem compile_blank {query : Query} {compiled : CompiledQuery}
    (h : query.compile = .ok compiled) :
    ∃ blanked, query.blank.compile = .ok blanked ∧ compiled.text = blanked.text ∧
      compiled.bindVars.map Prod.fst = blanked.bindVars.map Prod.fst := by
  obtain ⟨program, bound, hrun, htext, hvars⟩ := compile_eq_ok_iff.1 h
  obtain ⟨bound', hrun', hparameters⟩ := Aql.compileQuery_blank query [] [] program bound rfl hrun
  refine ⟨⟨program.text, Aql.sent bound'⟩,
    compile_eq_ok_iff.2 ⟨program, bound', hrun', rfl, rfl⟩, htext, ?_⟩
  have hkeys : ∀ entries : Aql.Bound,
      (entries.map fun entry => (entry.1.key, entry.2)).map Prod.fst
        = (entries.map Prod.fst).map Aql.Parameter.key := by
    intro entries
    simp
  rw [hvars]
  apply Assoc.map_fst_ofList_congr
  rw [hkeys, hkeys, hparameters]

/-- Queries that the same calls build from different data have the same text and the same
parameters. -/
theorem text_independent_of_data {start start' : Start} {calls calls' : List Call}
    {query query' : Query} {compiled compiled' : CompiledQuery}
    (hstart : start.blank = start'.blank)
    (hcalls : calls.map Call.blank = calls'.map Call.blank)
    (hquery : build start calls = .ok query) (hquery' : build start' calls' = .ok query')
    (hcompiled : query.compile = .ok compiled) (hcompiled' : query'.compile = .ok compiled') :
    compiled.text = compiled'.text ∧
      compiled.bindVars.map Prod.fst = compiled'.bindVars.map Prod.fst := by
  have hblank : query.blank = query'.blank := by
    have hbuilt := build_blank hquery
    rw [hstart, hcalls, build_blank hquery'] at hbuilt
    exact (Except.ok.inj hbuilt).symm
  obtain ⟨blanked, hblanked, htext, hkeys⟩ := compile_blank hcompiled
  obtain ⟨blanked', hblanked', htext', hkeys'⟩ := compile_blank hcompiled'
  obtain rfl : blanked' = blanked := by
    rw [hblank, hblanked'] at hblanked
    exact Except.ok.inj hblanked
  exact ⟨htext.trans htext'.symm, hkeys.trans hkeys'.symm⟩

def voyagesFrom (ships : String) : Start :=
  .aliased ⟨ships, .document, [⟨"owner", .primitive .string, true, none, false, none⟩,
    ⟨"flags", .listOf (.primitive .string), false, none, false, none⟩], false, []⟩ "ship"

def voyages (owner : Json) (flags : List Json) (routes ports : String) (count : UInt64) :
    List Call :=
  [.filter (.all [.compare (.ofDotted "owner") .startsWith (.literal owner), .any [],
      .negation (.compare (.ofDotted "flags") .anyOf (.literal (.array flags)))]),
    .traverse (.step .outbound (.edgeCollections [routes]) "port"
      ⟨ports, .document, [], true, []⟩),
    .filter (.compare (.ofDotted "name`") .ne (.field (.ofAlias "ship" "owner"))),
    .slice count count,
    .project [.ofField (.ofDotted "name`"), ⟨"ship", .var "ship"⟩]]

theorem text_independent_of_data_voyages :
    ∃ query query' compiled compiled',
      build (voyagesFrom "ships") (voyages (.string "Ann") [] "routes" "ports" 1) = .ok query ∧
      build (voyagesFrom "barges") (voyages (.string "x\" || true") [.null] "@v" "`" 9)
        = .ok query' ∧
      query.compile = .ok compiled ∧ query'.compile = .ok compiled' ∧
      compiled.text = compiled'.text ∧
      compiled.bindVars.map Prod.fst = compiled'.bindVars.map Prod.fst := by
  have hstart : (voyagesFrom "ships").blank = (voyagesFrom "barges").blank := rfl
  have hcalls : (voyages (.string "Ann") [] "routes" "ports" 1).map Call.blank
      = (voyages (.string "x\" || true") [.null] "@v" "`" 9).map Call.blank := rfl
  have hfirst : ((build (voyagesFrom "ships")
      (voyages (.string "Ann") [] "routes" "ports" 1)).bind compile).isOk = true := by
    decide +kernel
  have hsecond : ((build (voyagesFrom "barges")
      (voyages (.string "x\" || true") [.null] "@v" "`" 9)).bind compile).isOk = true := by
    decide +kernel
  obtain ⟨compiled, hfirst⟩ := Outcome.exists_of_isOk hfirst
  obtain ⟨compiled', hsecond⟩ := Outcome.exists_of_isOk hsecond
  obtain ⟨query, hquery, hcompiled⟩ := Outcome.bind_eq_ok_iff.1 hfirst
  obtain ⟨query', hquery', hcompiled'⟩ := Outcome.bind_eq_ok_iff.1 hsecond
  exact ⟨query, query', compiled, compiled', hquery, hquery', hcompiled, hcompiled',
    text_independent_of_data hstart hcalls hquery hquery' hcompiled hcompiled'⟩

end Query

end DocGraph
