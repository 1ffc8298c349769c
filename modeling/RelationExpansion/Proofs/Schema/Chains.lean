import RelationExpansion.Schema.View

/-! # Chains of relations

A `Chain` is a path of relation names that can be followed from a level on, through references and
inline relations.  Chains are built by membership in a level, while views look names up; where names
are distinct the two agree, which is `declares_iff_chain`.
-/

namespace RelationExpansion

inductive Chain (registry : Registry) : List (String × RelationDecl) → List String → Prop where
  | last : (name, relation) ∈ level → Chain registry level [name]
  | step : (name, relation) ∈ level → registry.relationsBelow? relation = some next →
      Chain registry next path → Chain registry level (name :: path)

variable {registry : Registry} {level : List (String × RelationDecl)} {name : String}
  {relation : RelationDecl} {path : List String}

/-- What can follow a relation in a chain: nothing, or a chain of the level below it. -/
def Continues (registry : Registry) (relation : RelationDecl) (path : List String) : Prop :=
  path = [] ∨ ∃ next, registry.relationsBelow? relation = some next ∧ Chain registry next path

theorem chain_cons_iff :
    Chain registry level (name :: path) ↔
      ∃ relation, (name, relation) ∈ level ∧ Continues registry relation path := by
  constructor
  · intro chain
    cases chain with
    | last mem => exact ⟨_, mem, .inl rfl⟩
    | step mem below chain => exact ⟨_, mem, .inr ⟨_, below, chain⟩⟩
  · rintro ⟨relation, mem, rfl | ⟨next, below, chain⟩⟩
    · exact .last mem
    · exact .step mem below chain

theorem not_chain_nil : ¬ Chain registry level [] := fun chain => nomatch chain

theorem not_chain_of_nil_level : ¬ Chain registry [] path := by
  intro chain
  cases chain with
  | last mem => cases mem
  | step mem _ _ => cases mem

theorem Chain.of_subset {larger : List (String × RelationDecl)} (within : level ⊆ larger)
    (chain : Chain registry level path) : Chain registry larger path := by
  cases chain with
  | last mem => exact .last (within mem)
  | step mem below chain => exact .step (within mem) below chain

/-! ## Levels below a relation -/

theorem relationsBelow?_reference {route : Option String} {target : String}
    {inner : List (String × RelationDecl)} {resource : ResourceDecl}
    (found : registry.resource? target = some resource) :
    registry.relationsBelow? ⟨route, some target, inner⟩ = some resource.relations := by
  simp [Registry.relationsBelow?, RelationDecl.isLeaf, found]

theorem continues_inline_iff {route : Option String} {inner : List (String × RelationDecl)} :
    Continues registry ⟨route, none, inner⟩ path ↔ path = [] ∨ Chain registry inner path := by
  cases inner with
  | nil => simp [Continues, Registry.relationsBelow?, RelationDecl.isLeaf, not_chain_of_nil_level]
  | cons first others => simp [Continues, Registry.relationsBelow?, RelationDecl.isLeaf]

theorem continues_reference_iff {route : Option String} {target : String}
    {inner : List (String × RelationDecl)} {resource : ResourceDecl}
    (found : registry.resource? target = some resource) :
    Continues registry ⟨route, some target, inner⟩ path ↔
      path = [] ∨ Chain registry resource.relations path := by
  simp [Continues, relationsBelow?_reference found]

/-! ## Distinct names -/

theorem DistinctNames.nodup_keys (distinct : DistinctNames level) : (Assoc.keys level).Nodup := by
  induction level with
  | nil => exact List.nodup_nil
  | cons entry rest ih => exact List.nodup_cons.2 ⟨distinct.1, ih distinct.2.2⟩

theorem DistinctNames.inside (distinct : DistinctNames level) (mem : (name, relation) ∈ level) :
    DistinctNames relation.relations := by
  induction level with
  | nil => cases mem
  | cons entry rest ih =>
    rcases List.mem_cons.1 mem with rfl | later
    · exact RelationDecl.hasDistinctNames_iff.1 distinct.2.1
    · exact ih distinct.2.2 later

theorem DistinctNames.below {next : List (String × RelationDecl)}
    (distinct : DistinctNames level) (mem : (name, relation) ∈ level)
    (below : registry.relationsBelow? relation = some next) : DistinctNames next := by
  unfold Registry.relationsBelow? at below
  split at below
  · cases below
  · split at below
    · obtain ⟨resource, -, rfl⟩ := Option.map_eq_some_iff.1 below
      exact resource.distinct
    · cases below
      exact distinct.inside mem

theorem get?_level_eq_some_iff (distinct : DistinctNames level) :
    Assoc.get? name level = some relation ↔ (name, relation) ∈ level :=
  ⟨Assoc.mem_of_get?_eq_some, Assoc.get?_eq_some_of_mem distinct.nodup_keys⟩

/-! ## Views -/

theorem children?_eq_some_iff {view child : View} :
    view.children? name = some child ↔
      ∃ relation next, Assoc.get? name view.relations = some relation ∧
        view.registry.relationsBelow? relation = some next ∧
        child = { view with relations := next, depth := view.depth - 1 } := by
  simp only [View.children?, View.relation?, Option.bind_eq_bind, Option.bind_eq_some_iff,
    Option.pure_def, Option.some.injEq]
  constructor
  · rintro ⟨relation, found, next, below, rfl⟩
    exact ⟨relation, next, found, below, rfl⟩
  · rintro ⟨relation, next, found, below, rfl⟩
    exact ⟨relation, found, next, below, rfl⟩

theorem declares_cons_cons {view : View} {second : String} :
    view.declares (name :: second :: path) = true ↔
      ∃ child, view.children? name = some child ∧ child.declares (second :: path) = true := by
  simp only [View.declares, View.relationAt?]
  cases view.children? name with
  | none => simp
  | some child => simp

theorem declares_iff_chain {depth : Nat} (distinct : DistinctNames level) :
    (View.mk registry level depth).declares path = true ↔ Chain registry level path := by
  -- The last name of a path is looked up, and every earlier one is stepped through.
  induction path generalizing level depth with
  | nil => simp [View.declares, View.relationAt?, not_chain_nil]
  | cons name path ih =>
    rw [chain_cons_iff]
    cases path with
    | nil =>
      simp [View.declares, View.relationAt?, View.relation?, Continues, Option.isSome_iff_exists,
        get?_level_eq_some_iff distinct]
    | cons second path =>
      rw [declares_cons_cons]
      constructor
      · rintro ⟨child, children, declared⟩
        obtain ⟨relation, next, found, below, rfl⟩ := children?_eq_some_iff.1 children
        have mem := (get?_level_eq_some_iff distinct).1 found
        exact ⟨relation, mem, .inr ⟨next, below, (ih (distinct.below mem below)).1 declared⟩⟩
      · rintro ⟨relation, mem, empty | ⟨next, below, chain⟩⟩
        · cases empty
        · have found := (get?_level_eq_some_iff distinct).2 mem
          exact ⟨_, children?_eq_some_iff.2 ⟨relation, next, found, below, rfl⟩,
            (ih (distinct.below mem below)).2 chain⟩

end RelationExpansion
