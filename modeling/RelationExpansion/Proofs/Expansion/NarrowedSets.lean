import Mathlib.Data.List.Infix
import RelationExpansion.Proofs.Expansion.Paths

/-! # Sets that are narrowed in steps

A path that is written from segments without dots stands for just these segments: what lies above
and below it is told by the prefixes of the list (`Path.spells_ofSegments`).  Therefore a set may be
narrowed step by step, and a narrowed set still answers for every relation below its stack
(`ExpansionSet.narrowed_by_segments`).
-/

namespace RelationExpansion

variable {segments front back stack : List String}

namespace Path

/-- A path and the list of segments that it stands for. -/
structure Spells (path : Path) (segments : List String) : Prop where
  segments_eq : path.segments = segments
  /-- No other list is written as this path. -/
  only : ∀ other, other ≠ [] → DotFree other → ofSegments other = path → other = segments
  below : ∀ stack, path.isBelow stack = true ↔ stack <+: segments ∧ stack ≠ segments
  /-- Of all prefixes, which start with the empty one and end with the whole list, the ones between
  are the paths above. -/
  above : path.ancestors = segments.inits.tail.dropLast.map ofSegments

theorem isBelow_iff_prefix_ne {path : Path} :
    path.isBelow stack = true ↔ stack <+: path.segments ∧ stack ≠ path.segments := by
  rw [isBelow_iff]
  constructor
  · rintro ⟨within, shorter⟩
    exact ⟨within, fun same => shorter.ne (congrArg List.length same)⟩
  · rintro ⟨within, proper⟩
    apply And.intro within
    apply Nat.lt_of_le_of_ne within.length_le
    exact fun same => proper (within.eq_of_length same)

theorem ancestors_eq_inits (path : Path) :
    path.ancestors = path.segments.inits.tail.dropLast.map ofSegments := by
  apply List.ext_getElem
  · simp [ancestors, depth]
  · intro index _ _
    simp [ancestors]

theorem spells_ofSegments (nonempty : segments ≠ []) (free : DotFree segments) :
    (ofSegments segments).Spells segments := by
  have back : (ofSegments segments).segments = segments := segments_ofSegments nonempty free
  refine ⟨back, ?only, fun stack => ?below, ?above⟩
  case only =>
    intro other nonemptyOther freeOther same
    rw [← back, ← same, segments_ofSegments nonemptyOther freeOther]
  case below => rw [isBelow_iff_prefix_ne, back]
  case above => rw [ancestors_eq_inits, back]

/-- What lies below a longer stack lies below the shorter one too. -/
theorem isBelow_of_append {path : Path} (below : path.isBelow (front ++ back) = true) :
    path.isBelow front = true := by
  rw [isBelow_iff] at below ⊢
  obtain ⟨within, shorter⟩ := below
  rw [List.length_append] at shorter
  exact ⟨(List.prefix_append front back).trans within, by omega⟩

end Path

namespace ExpansionSet

theorem below_below (set : ExpansionSet) (front back : List String) :
    (set.below front).below (front ++ back) = set.below (front ++ back) := by
  apply OrderedMap.ext
  show (set.entries.filter (·.1.isBelow front)).filter (·.1.isBelow (front ++ back)) =
    set.entries.filter (·.1.isBelow (front ++ back))
  rw [List.filter_filter]
  refine List.filter_congr fun entry _ => ?_
  -- Once the second test is passed, the first one tells nothing new.
  by_cases deep : entry.1.isBelow (front ++ back) = true
  · simp [deep, Path.isBelow_of_append deep]
  · simp [deep]

theorem child?_below {relation : String} (freeFront : DotFree front) (freeBack : DotFree back)
    (undotted : '.' ∉ relation.toList) (set : ExpansionSet) :
    (set.below front).child? (front ++ back) relation = set.child? (front ++ back) relation := by
  have free : DotFree (front ++ back ++ [relation]) :=
    (freeFront.append freeBack).append (dotFree_singleton undotted)
  have within : front <+: front ++ back ++ [relation] := by
    rw [List.append_assoc]
    exact List.prefix_append front _
  have longer : front.length < (front ++ back ++ [relation]).length := by
    simp only [List.length_append, List.length_singleton]
    omega
  exact get?_below free within longer

/-- Paths stand for their segments, and a set is narrowed to a stack of them in one step or in
several; entries are left out, and no others are moved or changed. -/
theorem narrowed_by_segments (nonempty : segments ≠ []) (free : DotFree segments)
    (freeFront : DotFree front) (freeBack : DotFree back) (set : ExpansionSet) :
    (Path.ofSegments segments).Spells segments ∧
      (set.below front).below (front ++ back) = set.below (front ++ back) ∧
      (set.below (front ++ back)).entries.Sublist set.entries ∧
      ∀ relation : String, '.' ∉ relation.toList →
        (set.below front).child? (front ++ back) relation =
          set.child? (front ++ back) relation :=
  ⟨Path.spells_ofSegments nonempty free, below_below set front back, List.filter_sublist,
    fun _ undotted => child?_below freeFront freeBack undotted set⟩

/-- A segment may be empty, and a set may hold paths that are no relations. -/
theorem narrowed_by_segments_blank :
    let segments := ["tags", "", "articles"]
    let set : ExpansionSet := OrderedMap.ofList
      [(⟨""⟩, { limit := 1 }), (⟨"tags"⟩, { limit := 2 }), (⟨"tags..articles"⟩, { limit := 3 }),
        (⟨"tags.articles"⟩, { limit := 4 })]
    segments ≠ [] ∧ DotFree segments ∧ DotFree ["tags"] ∧ DotFree [""] ∧
      (Path.ofSegments segments).Spells segments ∧
      (set.below ["tags"]).below ["tags", ""] = set.below ["tags", ""] ∧
      (set.below ["tags", ""]).entries.Sublist set.entries ∧
      (set.below ["tags"]).child? ["tags", ""] "articles" =
        set.child? ["tags", ""] "articles" ∧
      (set.below ["tags"]).keys = [⟨"tags..articles"⟩, ⟨"tags.articles"⟩] ∧
      (set.child? ["tags", ""] "articles").map (·.limit) = some 3 := by
  intro segments set
  have nonempty : segments ≠ [] := List.cons_ne_nil _ _
  have free : DotFree segments := by unfold DotFree; decide
  have freeFront : DotFree ["tags"] := by unfold DotFree; decide
  have freeBack : DotFree [""] := by unfold DotFree; decide
  obtain ⟨spells, narrowed, kept, answers⟩ :=
    narrowed_by_segments nonempty free freeFront freeBack set
  exact ⟨nonempty, free, freeFront, freeBack, spells, narrowed, kept,
    answers "articles" (by decide), by decide +kernel, by decide +kernel⟩

end ExpansionSet

end RelationExpansion
