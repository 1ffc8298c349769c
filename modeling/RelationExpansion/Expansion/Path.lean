import RelationExpansion.Text.Cut

/-! # Relation paths

A path such as `tags.articles` names a relation of a relation.  It is written as one text with dots
between its segments, and two paths are equal when their texts are.  Segments that hold no dot can
be read back from the text (`segments_ofSegments`).
-/

namespace RelationExpansion

structure Path where
  text : String
  deriving DecidableEq, Repr, Inhabited

namespace Path

def ofSegments (segments : List String) : Path :=
  ⟨String.ofList (Text.joinWith '.' (segments.map String.toList))⟩

def segments (path : Path) : List String :=
  (Text.cutEvery '.' path.text.toList).map String.ofList

def depth (path : Path) : Nat := path.segments.length

/-- Whether the path lies strictly below a list of segments. -/
def isBelow (path : Path) (stack : List String) : Bool :=
  stack.length < path.depth && stack.isPrefixOf path.segments

/-- The paths above this one, shortest first. -/
def ancestors (path : Path) : List Path :=
  (List.range (path.depth - 1)).map fun short => ofSegments (path.segments.take (short + 1))

/-! ## Laws -/

theorem segments_ofSegments {segments : List String} (nonempty : segments ≠ [])
    (plain : ∀ segment ∈ segments, '.' ∉ segment.toList) :
    (ofSegments segments).segments = segments := by
  have free : ∀ part ∈ segments.map String.toList, '.' ∉ part := by
    intro part mem
    obtain ⟨segment, inside, rfl⟩ := List.mem_map.1 mem
    exact plain segment inside
  simp [Path.segments, ofSegments, Text.cutEvery_joinWith (by simpa using nonempty) free,
    Function.comp_def]

theorem ofSegments_segments (path : Path) : ofSegments path.segments = path := by
  simp [Path.segments, ofSegments, Text.joinWith_cutEvery, Function.comp_def]

theorem one_le_depth (path : Path) : 1 ≤ path.depth := by
  have := List.length_pos_iff.2 (Text.cutEvery_ne_nil '.' path.text.toList)
  simp only [depth, segments, List.length_map]
  omega

/-- A dot inside a segment makes a path deeper, never less deep. -/
theorem length_le_depth_ofSegments (segments : List String) :
    segments.length ≤ (ofSegments segments).depth := by
  have := Text.length_le_cutEvery_joinWith '.' (segments.map String.toList)
  simpa [depth, Path.segments, ofSegments] using this

end Path

end RelationExpansion
