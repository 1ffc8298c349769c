import RelationExpansion.Expansion.Path
import RelationExpansion.Expansion.Selection

/-! # Expansion sets

The relations that one request expands: paths with their selections, in the order in which they
were asked for.
-/

namespace RelationExpansion

abbrev ExpansionSet := OrderedMap Path Selection

namespace ExpansionSet

/-- The selection for a relation directly below a stack of relation names. -/
def child? (set : ExpansionSet) (stack : List String) (relation : String) : Option Selection :=
  set.get? (Path.ofSegments (stack ++ [relation]))

/-- The entries strictly below a stack of relation names, under their own paths. -/
def below (set : ExpansionSet) (stack : List String) : ExpansionSet :=
  set.filterKeys (·.isBelow stack)

/-- The depth of the deepest path; zero if there is none. -/
def maxDepth (set : ExpansionSet) : Nat :=
  set.keys.foldl (fun deepest path => max deepest path.depth) 0

/-! ## Laws -/

theorem depth_le_maxDepth {set : ExpansionSet} {path : Path} (mem : path ∈ set.keys) :
    path.depth ≤ set.maxDepth := by
  have grows : ∀ (paths : List Path) (start : Nat),
      start ≤ paths.foldl (fun deepest path => max deepest path.depth) start ∧
        ∀ p ∈ paths, p.depth ≤ paths.foldl (fun deepest path => max deepest path.depth) start := by
    intro paths
    induction paths with
    | nil => intro start; simp
    | cons first rest ih =>
      intro start
      have later := ih (max start first.depth)
      refine ⟨by simp only [List.foldl_cons]; omega, ?_⟩
      intro p inside
      simp only [List.foldl_cons]
      rcases List.mem_cons.1 inside with rfl | inside
      · omega
      · exact later.2 p inside
  exact (grows set.keys 0).2 path mem

/-- A relation can only be asked for at a stack that is shorter than the deepest path. -/
theorem length_lt_maxDepth {set : ExpansionSet} {stack : List String} {relation : String}
    {selection : Selection} (found : set.child? stack relation = some selection) :
    stack.length < set.maxDepth := by
  have mem : Path.ofSegments (stack ++ [relation]) ∈ set.keys := by
    have known : set.contains (Path.ofSegments (stack ++ [relation])) = true := by
      simpa [OrderedMap.contains, child?] using congrArg Option.isSome found
    exact OrderedMap.contains_iff_mem_keys.1 known
  have deep := depth_le_maxDepth mem
  have long := Path.length_le_depth_ofSegments (stack ++ [relation])
  simp only [List.length_append, List.length_singleton] at long
  omega

end ExpansionSet

end RelationExpansion
