import DocGraph.Http.Path
import DocGraph.Proofs.Text.Parts
import DocGraph.Proofs.Text.Percent
import Mathlib.Logic.Function.Basic
/-!
# Paths lead to what they address

Whatever the names of a database and of the segments are, the path made from them addresses just
them.
-/

namespace DocGraph.Http

open Text

theorem decodeSegment?_encodeSegment (segment : String) :
    decodeSegment? (encodeSegment segment) = some segment :=
  percentDecode?_percentEncode (by decide) segment

theorem not_mem_encodeSegment (segment : String) : '/' ∉ (encodeSegment segment).toList :=
  not_mem_percentEncode (by decide) (by decide) (by decide) segment

theorem mapM_decodeSegment? (segments : List String) :
    (segments.map encodeSegment).mapM decodeSegment? = some segments := by
  induction segments with
  | nil => rfl
  | cons segment segments ih =>
      rw [List.map_cons, List.mapM_cons, decodeSegment?_encodeSegment, ih]
      rfl

theorem parsePath?_apiPath (database : String) (segments : List String) :
    parsePath? (apiPath database segments) = some (database, segments) := by
  have hparts : ∀ p ∈ "" :: "_db" :: encodeSegment database :: "_api" ::
      segments.map encodeSegment, '/' ∉ p.toList := by
    intro p hp
    simp only [List.mem_cons, List.mem_map] at hp
    rcases hp with rfl | rfl | rfl | rfl | ⟨segment, _, rfl⟩
    · decide
    · decide
    · exact not_mem_encodeSegment database
    · decide
    · exact not_mem_encodeSegment segment
  unfold parsePath? apiPath
  rw [split_intercalate rfl hparts]
  simp only [decodeSegment?_encodeSegment, mapM_decodeSegment?]
  rfl

/-- No two addresses have a path in common. -/
theorem apiPath_injective2 : Function.Injective2 apiPath := by
  intro database other segments others h
  have hread : some (database, segments) = some (other, others) := by
    rw [← parsePath?_apiPath, h, parsePath?_apiPath]
  exact Prod.mk.inj (Option.some.inj hread)

example : apiPath "a/b" ["document", "%2F", "..", ""] = "/_db/a%2Fb/_api/document/%252F/../" := by
  decide +kernel

end DocGraph.Http
