import RelationExpansion.Proofs.Schema.Chains
import RelationExpansion.Proofs.Schema.Checks

/-! # Heights and chains

The height that a walk finds is the length of the longest chain (`isHeight_of_height?`).  Where it
finds none although all references are known, there are chains of any length
(`unbounded_of_height?_eq_none`): the walk came back to a resource, and what led from there to the
place where it came back can be gone through again and again.
-/

namespace RelationExpansion

variable {registry : Registry} {visited : List String} {name : String} {relation : RelationDecl}
  {level rest next : List (String × RelationDecl)}

theorem chain?_reference {route : Option String} {target : String}
    {inner : List (String × RelationDecl)} {resource : ResourceDecl} (fresh : target ∉ visited)
    (known : registry.resource? target = some resource) :
    registry.chain? visited ⟨route, some target, inner⟩ =
      (registry.height? (target :: visited) resource.relations).map (· + 1) := by
  rw [Registry.chain?, dif_neg fresh]
  split
  · simp_all
  · rename_i found
    cases known.symm.trans found
    rfl

theorem chain?_missing {route : Option String} {target : String}
    {inner : List (String × RelationDecl)} (unknown : registry.resource? target = none) :
    registry.chain? visited ⟨route, some target, inner⟩ = none := by
  rw [Registry.chain?]
  split
  · rfl
  · split <;> simp_all

/-! ## Walks that end -/

/-- Zero where there is no chain. -/
def IsHeight (registry : Registry) (level : List (String × RelationDecl)) (height : Nat) : Prop :=
  (∀ path, Chain registry level path → path.length ≤ height) ∧
    (height = 0 ∨ ∃ path, Chain registry level path ∧ path.length = height)

/-- The relation itself counts. -/
def IsReach (registry : Registry) (relation : RelationDecl) (reach : Nat) : Prop :=
  (∀ path, Continues registry relation path → path.length + 1 ≤ reach) ∧
    ∃ path, Continues registry relation path ∧ path.length + 1 = reach

theorem isReach_succ {height : Nat}
    (below : ∀ path, Continues registry relation path ↔ path = [] ∨ Chain registry next path)
    (highest : IsHeight registry next height) : IsReach registry relation (height + 1) := by
  obtain ⟨bound, attained⟩ := highest
  refine ⟨fun path continues => ?_, ?_⟩
  · rcases (below path).1 continues with rfl | chain
    · simp
    · exact Nat.succ_le_succ (bound path chain)
  · rcases attained with rfl | ⟨path, chain, length⟩
    · exact ⟨[], (below []).2 (.inl rfl), rfl⟩
    · exact ⟨path, (below path).2 (.inr chain), by omega⟩

theorem isHeight_nil : IsHeight registry [] 0 :=
  ⟨fun _ chain => absurd chain not_chain_of_nil_level, .inl rfl⟩

theorem isHeight_cons {reach height : Nat} (longest : IsReach registry relation reach)
    (others : IsHeight registry rest height) :
    IsHeight registry ((name, relation) :: rest) (max reach height) := by
  refine ⟨fun path chain => ?_, .inr ?_⟩
  · cases path with
    | nil => exact absurd chain not_chain_nil
    | cons first path =>
      obtain ⟨found, mem, continues⟩ := chain_cons_iff.1 chain
      rcases List.mem_cons.1 mem with same | later
      · cases same
        exact Nat.le_trans (longest.1 path continues) (Nat.le_max_left _ _)
      · have inside := chain_cons_iff.2 ⟨found, later, continues⟩
        exact Nat.le_trans (others.1 _ inside) (Nat.le_max_right _ _)
  · obtain ⟨path, continues, length⟩ := longest.2
    by_cases higher : height ≤ reach
    · refine ⟨name :: path, chain_cons_iff.2 ⟨relation, by simp, continues⟩, ?_⟩
      simp only [List.length_cons]
      omega
    · -- The rest is higher than the first relation, so its height is not zero.
      obtain ⟨other, chain, attained⟩ := others.2.resolve_left (by omega)
      exact ⟨other, chain.of_subset (List.subset_cons_self _ _), by omega⟩

theorem isHeight_of_height? {height : Nat} (found : registry.height? visited level = some height) :
    IsHeight registry level height := by
  -- The induction is on the walk itself, so each case is one of its branches.
  have walks := Registry.height?.induct registry
    (fun visited relation => ∀ reach, registry.chain? visited relation = some reach →
      IsReach registry relation reach)
    (fun visited level => ∀ height, registry.height? visited level = some height →
      IsHeight registry level height)
  refine walks ?inline ?back ?missing ?reference ?nil ?cons visited level height found
  case inline =>
    intro visited route inner ih reach found
    rw [Registry.chain?] at found
    obtain ⟨height, below, rfl⟩ := Option.map_eq_some_iff.1 found
    exact isReach_succ (fun _ => continues_inline_iff) (ih height below)
  case back =>
    intro visited route target inner again reach found
    simp [Registry.chain?, again] at found
  case missing =>
    intro visited route target inner fresh unknown reach found
    rw [chain?_missing unknown] at found
    cases found
  case reference =>
    intro visited route target inner fresh resource known ih reach found
    rw [chain?_reference fresh known] at found
    obtain ⟨height, below, rfl⟩ := Option.map_eq_some_iff.1 found
    exact isReach_succ (fun _ => continues_reference_iff known) (ih height below)
  case nil =>
    intro visited height found
    rw [Registry.height?] at found
    cases found
    exact isHeight_nil
  case cons =>
    intro visited name relation rest longest others height found
    simp only [Registry.height?, Option.bind_eq_bind, Option.bind_eq_some_iff, Option.pure_def,
      Option.some.injEq] at found
    obtain ⟨reach, reached, height, higher, rfl⟩ := found
    exact isHeight_cons (longest reach reached) (others height higher)

/-! ## Walks that come back -/

def Unbounded (registry : Registry) (level : List (String × RelationDecl)) : Prop :=
  ∀ bound, ∃ path, bound ≤ path.length ∧ Chain registry level path

def UnboundedBelow (registry : Registry) (relation : RelationDecl) : Prop :=
  ∀ bound, ∃ path, bound ≤ path.length ∧ Continues registry relation path

/-- Some path leads from the resource to the level. -/
def LeadsTo (registry : Registry) (resource : ResourceDecl) (level : List (String × RelationDecl)) :
    Prop :=
  ∃ front, ∀ path, Chain registry level path → Chain registry resource.relations (front ++ path)

/-- Some path leads from the resource through the relation; it ends with the relation's name, so
it is not empty. -/
def LeadsThrough (registry : Registry) (resource : ResourceDecl) (relation : RelationDecl) : Prop :=
  ∃ front, front ≠ [] ∧
    ∀ path, Continues registry relation path → Chain registry resource.relations (front ++ path)

theorem LeadsTo.through {resource : ResourceDecl} (leads : LeadsTo registry resource level)
    (mem : (name, relation) ∈ level) : LeadsThrough registry resource relation := by
  obtain ⟨front, extend⟩ := leads
  refine ⟨front ++ [name], by simp, fun path continues => ?_⟩
  rw [List.append_assoc]
  exact extend _ (chain_cons_iff.2 ⟨relation, mem, continues⟩)

theorem LeadsTo.of_subset {resource : ResourceDecl} (leads : LeadsTo registry resource level)
    (within : rest ⊆ level) : LeadsTo registry resource rest := by
  obtain ⟨front, extend⟩ := leads
  exact ⟨front, fun path chain => extend path (chain.of_subset within)⟩

theorem LeadsThrough.below {resource : ResourceDecl}
    (leads : LeadsThrough registry resource relation)
    (below : ∀ path, Continues registry relation path ↔ path = [] ∨ Chain registry next path) :
    LeadsTo registry resource next := by
  obtain ⟨front, -, extend⟩ := leads
  exact ⟨front, fun path chain => extend path ((below path).2 (.inr chain))⟩

/-- A resource that leads through a relation that refers to it has chains of any length. -/
theorem unbounded_of_return {resource : ResourceDecl}
    (leads : LeadsThrough registry resource relation)
    (back : ∀ path, Continues registry relation path ↔
      path = [] ∨ Chain registry resource.relations path) :
    Unbounded registry resource.relations := by
  obtain ⟨front, nonempty, extend⟩ := leads
  have once := List.length_pos_iff.2 nonempty
  intro bound
  induction bound with
  | zero => exact ⟨front ++ [], Nat.zero_le _, extend [] ((back []).2 (.inl rfl))⟩
  | succ bound ih =>
    obtain ⟨path, long, chain⟩ := ih
    refine ⟨front ++ path, ?_, extend path ((back path).2 (.inr chain))⟩
    rw [List.length_append]
    omega

theorem unboundedBelow_of_unbounded
    (below : ∀ path, Continues registry relation path ↔ path = [] ∨ Chain registry next path)
    (unbounded : Unbounded registry next) : UnboundedBelow registry relation := by
  intro bound
  obtain ⟨path, long, chain⟩ := unbounded bound
  exact ⟨path, long, (below path).2 (.inr chain)⟩

theorem unbounded_of_unboundedBelow (mem : (name, relation) ∈ level)
    (unbounded : UnboundedBelow registry relation) : Unbounded registry level := by
  intro bound
  obtain ⟨path, long, continues⟩ := unbounded bound
  exact ⟨name :: path, Nat.le_succ_of_le long, chain_cons_iff.2 ⟨relation, mem, continues⟩⟩

theorem Unbounded.of_subset {larger : List (String × RelationDecl)} (within : level ⊆ larger)
    (unbounded : Unbounded registry level) : Unbounded registry larger := by
  intro bound
  obtain ⟨path, long, chain⟩ := unbounded bound
  exact ⟨path, long, chain.of_subset within⟩

/-- Every visited resource leads to where the walk stands. -/
def Visited (registry : Registry) (leads : ResourceDecl → Prop) (visited : List String) : Prop :=
  ∀ target ∈ visited, ∃ resource, registry.resource? target = some resource ∧ leads resource

theorem Visited.mono {leads follows : ResourceDecl → Prop}
    (step : ∀ resource, leads resource → follows resource)
    (known : Visited registry leads visited) : Visited registry follows visited := by
  intro target mem
  obtain ⟨resource, found, holds⟩ := known target mem
  exact ⟨resource, found, step resource holds⟩

theorem unbounded_of_height?_eq_none
    (allKnown : ∀ name resource, registry.resource? name = some resource →
      KnownReferences registry resource.relations)
    (known : KnownReferences registry level)
    (leads : Visited registry (LeadsTo registry · level) visited)
    (endless : registry.height? visited level = none) : Unbounded registry level := by
  have walks := Registry.height?.induct registry
    (fun visited relation =>
      (∀ target, relation.resource = some target →
        ∃ resource, registry.resource? target = some resource) →
      KnownReferences registry relation.relations →
      Visited registry (LeadsThrough registry · relation) visited →
      registry.chain? visited relation = none → UnboundedBelow registry relation)
    (fun visited level => KnownReferences registry level →
      Visited registry (LeadsTo registry · level) visited →
      registry.height? visited level = none → Unbounded registry level)
  refine walks ?inline ?back ?missing ?reference ?nil ?cons visited level known leads endless
  case inline =>
    intro visited route inner ih _ known leads endless
    rw [Registry.chain?, Option.map_eq_none_iff] at endless
    have below : ∀ path, Continues registry ⟨route, none, inner⟩ path ↔
        path = [] ∨ Chain registry inner path := fun _ => continues_inline_iff
    exact unboundedBelow_of_unbounded below
      (ih known (leads.mono fun _ through => through.below below) endless)
  case back =>
    intro visited route target inner again _ _ leads _
    -- The visited resource leads through this relation, and the relation leads back to it.
    obtain ⟨resource, found, through⟩ := leads target again
    have back : ∀ path, Continues registry ⟨route, some target, inner⟩ path ↔
        path = [] ∨ Chain registry resource.relations path :=
      fun _ => continues_reference_iff found
    exact unboundedBelow_of_unbounded back (unbounded_of_return through back)
  case missing =>
    intro visited route target inner fresh unknown known
    obtain ⟨resource, found⟩ := known target rfl
    cases unknown.symm.trans found
  case reference =>
    intro visited route target inner fresh resource found ih _ _ leads endless
    rw [chain?_reference fresh found, Option.map_eq_none_iff] at endless
    have below : ∀ path, Continues registry ⟨route, some target, inner⟩ path ↔
        path = [] ∨ Chain registry resource.relations path :=
      fun _ => continues_reference_iff found
    refine unboundedBelow_of_unbounded below (ih (allKnown target resource found) ?_ endless)
    -- The walk now stands at the target itself, and all that led here leads there.
    intro name mem
    rcases List.mem_cons.1 mem with rfl | earlier
    · exact ⟨resource, found, [], fun _ chain => chain⟩
    · exact leads.mono (fun _ through => through.below below) name earlier
  case nil =>
    intro visited _ _ endless
    rw [Registry.height?] at endless
    cases endless
  case cons =>
    intro visited name relation rest first others known leads endless
    obtain ⟨here, inside, later⟩ := knownReferences_cons_iff.1 known
    cases reached : registry.chain? visited relation with
    | none =>
      have mem : (name, relation) ∈ (name, relation) :: rest := List.mem_cons_self ..
      exact unbounded_of_unboundedBelow mem
        (first here inside (leads.mono fun _ chain => chain.through mem) reached)
    | some reach =>
      simp only [Registry.height?, reached, Option.bind_eq_bind, Option.bind_some,
        Option.bind_eq_none_iff, Option.pure_def, reduceCtorEq, imp_false] at endless
      have none : registry.height? visited rest = none :=
        Option.eq_none_iff_forall_not_mem.2 endless
      exact (others later (leads.mono fun _ chain => chain.of_subset (List.subset_cons_self _ _))
        none).of_subset (List.subset_cons_self _ _)

end RelationExpansion
