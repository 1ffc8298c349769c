import RelationExpansion.Expansion.ExpansionSet

/-! # Paths and their segments

Joined segments can be told apart when no segment holds a dot.  Then the ancestors of a path are the
proper prefixes of its segments, and a path lies below a stack exactly when the stack is one.  A set
that is narrowed to a stack still answers for the paths below it (`ExpansionSet.get?_below`).
-/

namespace RelationExpansion

def DotFree (segments : List String) : Prop := ∀ segment ∈ segments, '.' ∉ segment.toList

variable {segments front stack : List String}

theorem DotFree.of_prefix (free : DotFree segments) (within : front <+: segments) : DotFree front :=
  fun segment mem => free segment (within.subset mem)

theorem DotFree.append (first : DotFree front) (second : DotFree segments) :
    DotFree (front ++ segments) := by
  intro segment mem
  rcases List.mem_append.1 mem with left | right
  · exact first segment left
  · exact second segment right

theorem dotFree_singleton {segment : String} (free : '.' ∉ segment.toList) : DotFree [segment] := by
  intro other mem
  cases List.mem_singleton.1 mem
  exact free

namespace Path

theorem dotFree_segments (path : Path) : DotFree path.segments := by
  intro segment mem
  obtain ⟨part, inside, rfl⟩ := List.mem_map.1 mem
  simpa using Text.not_mem_of_mem_cutEvery inside

theorem segments_ne_nil (path : Path) : path.segments ≠ [] :=
  List.length_pos_iff.1 path.one_le_depth

theorem segments_injective {path other : Path} (same : path.segments = other.segments) :
    path = other := by
  rw [← ofSegments_segments path, same, ofSegments_segments]

theorem mem_ancestors_iff {path ancestor : Path} :
    ancestor ∈ path.ancestors ↔ ancestor.segments <+: path.segments ∧ ancestor ≠ path := by
  simp only [ancestors, List.mem_map, List.mem_range, depth]
  constructor
  · rintro ⟨short, inside, rfl⟩
    have within : path.segments.take (short + 1) <+: path.segments := List.take_prefix _ _
    have length : (path.segments.take (short + 1)).length = short + 1 :=
      List.length_take_of_le (by omega)
    have back := segments_ofSegments (List.ne_nil_of_length_pos (by omega))
      (path.dotFree_segments.of_prefix within)
    refine ⟨by rwa [back], fun whole => ?_⟩
    rw [whole] at back
    have := congrArg List.length back
    omega
  · rintro ⟨within, proper⟩
    have positive := List.length_pos_iff.2 ancestor.segments_ne_nil
    have shorter : ancestor.segments.length < path.segments.length :=
      Nat.lt_of_le_of_ne within.length_le fun same =>
        proper (segments_injective (within.eq_of_length same))
    refine ⟨ancestor.segments.length - 1, by omega, ?_⟩
    rw [Nat.sub_add_cancel positive, ← List.prefix_iff_eq_take.1 within, ofSegments_segments]

theorem isBelow_iff {path : Path} :
    path.isBelow stack = true ↔ stack <+: path.segments ∧ stack.length < path.segments.length := by
  rw [isBelow, Bool.and_eq_true, decide_eq_true_eq, List.isPrefixOf_iff_prefix, and_comm]
  rfl

end Path

namespace ExpansionSet

variable {set left right : ExpansionSet} {relation : String}

/-! ## Sets below a stack -/

/-- A set that is narrowed to a stack still answers for every path below it. -/
theorem get?_below (free : DotFree segments)
    (within : stack <+: segments) (longer : stack.length < segments.length) :
    (set.below stack).get? (Path.ofSegments segments) = set.get? (Path.ofSegments segments) := by
  have nonempty : segments ≠ [] := List.ne_nil_of_length_pos (by omega)
  have kept : (Path.ofSegments segments).isBelow stack = true := by
    rw [Path.isBelow_iff, Path.segments_ofSegments nonempty free]
    exact ⟨within, longer⟩
  rw [below, OrderedMap.get?_filterKeys, if_pos kept]

/-- Whether two sets answer alike for every path that lies strictly below a stack. -/
def AgreesBelow (stack : List String) (left right : ExpansionSet) : Prop :=
  ∀ path, DotFree path → stack <+: path → stack.length < path.length →
    left.get? (Path.ofSegments path) = right.get? (Path.ofSegments path)

theorem AgreesBelow.refl (set : ExpansionSet) : AgreesBelow stack set set :=
  fun _ _ _ _ => rfl

theorem AgreesBelow.child? (agrees : AgreesBelow stack left right) (free : DotFree stack)
    (undotted : '.' ∉ relation.toList) : left.child? stack relation = right.child? stack relation :=
  agrees (stack ++ [relation]) (free.append (dotFree_singleton undotted))
    (List.prefix_append stack [relation]) (by simp)

/-- Below a longer stack it does not matter that one of the sets is narrowed to it. -/
theorem AgreesBelow.descend (agrees : AgreesBelow stack left right) :
    AgreesBelow (stack ++ [relation]) (left.below (stack ++ [relation])) right := by
  intro path free within longer
  rw [get?_below free within longer]
  have above : stack <+: path := (List.prefix_append stack [relation]).trans within
  simp only [List.length_append, List.length_singleton] at longer
  exact agrees path free above (by omega)

end ExpansionSet

end RelationExpansion
