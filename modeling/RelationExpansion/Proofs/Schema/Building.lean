import Mathlib.Data.ENat.Lattice
import Mathlib.Order.CompletePartialOrder
import RelationExpansion.Proofs.Schema.Height

/-! # Building registries

Which declarations make a registry, which depth a resource gets there, and with which error the
others are refused.  The depth is told by the paths that views declare, which may be of any length;
so lengths and caps are compared as extended numbers, where `⊤` stands for "no limit".
-/

namespace RelationExpansion

variable {declarations : List ResourceDecl} {registry : Registry} {resource : ResourceDecl}
  {level : List (String × RelationDecl)}

/-! ## Declarations that count -/

/-- Of several declarations with one name the last counts. -/
def Kept (declarations : List ResourceDecl) (resource : ResourceDecl) : Prop :=
  ∃ before after, declarations = before ++ resource :: after ∧
    ∀ later ∈ after, later.name ≠ resource.name

theorem resource?_collect_eq_some_iff {name : String} :
    (Registry.collect declarations).resource? name = some resource ↔
      Kept declarations resource ∧ resource.name = name := by
  rw [Registry.resource?, Registry.collect, OrderedMap.get?_ofList_eq_some_iff]
  constructor
  · rintro ⟨before, after, split, last⟩
    obtain ⟨front, back, rfl, -, named⟩ := List.map_eq_append_iff.1 split
    obtain ⟨found, later, rfl, same, rfl⟩ := List.map_eq_cons_iff.1 named
    cases same
    refine ⟨⟨front, later, rfl, fun other mem => ?_⟩, rfl⟩
    rintro same
    exact last (by simpa [Assoc.keys] using ⟨other, mem, same⟩)
  · rintro ⟨⟨before, after, rfl, last⟩, rfl⟩
    refine ⟨_, _, by rw [List.map_append, List.map_cons], ?_⟩
    simpa [Assoc.keys] using last

theorem mem_collected_iff :
    resource ∈ (Registry.collect declarations).resources.entries.map Prod.snd ↔
      Kept declarations resource := by
  constructor
  · intro mem
    obtain ⟨⟨name, found⟩, inside, rfl⟩ := List.mem_map.1 mem
    exact (resource?_collect_eq_some_iff.1 (OrderedMap.get?_eq_some_iff_mem.2 inside)).1
  · intro kept
    have found := resource?_collect_eq_some_iff.2 ⟨kept, rfl⟩
    exact List.mem_map.2 ⟨_, OrderedMap.get?_eq_some_iff_mem.1 found, rfl⟩

def NamedPlainly (declarations : List ResourceDecl) : Prop :=
  ∀ resource, Kept declarations resource → PlainNames resource.relations

/-- Every reference, however deep inside the relations of a resource, names a resource. -/
def Closed (declarations : List ResourceDecl) : Prop :=
  ∀ resource, Kept declarations resource →
    ∀ name relation, Within resource.relations name relation →
      ∀ target, relation.resource = some target →
        ∃ other, Kept declarations other ∧ other.name = target

theorem closed_iff_knownReferences :
    Closed declarations ↔ ∀ resource, Kept declarations resource →
      KnownReferences (Registry.collect declarations) resource.relations := by
  simp only [Closed, KnownReferences, resource?_collect_eq_some_iff]

/-! ## Lengths of declared paths -/

namespace View

def IsBounded (view : View) : Prop :=
  ∃ bound, ∀ path, view.declares path = true → path.length ≤ bound

/-- The length of the longest declared path: zero without paths, and `⊤` without a bound. -/
noncomputable def longest (view : View) : ℕ∞ :=
  ⨆ path, ⨆ _ : view.declares path = true, (path.length : ℕ∞)

theorem length_le_longest {view : View} {path : List String}
    (declared : view.declares path = true) : (path.length : ℕ∞) ≤ view.longest :=
  le_iSup₂_of_le path declared le_rfl

end View

theorem longest_eq_of_isHeight {depth height : Nat} (distinct : DistinctNames level)
    (highest : IsHeight registry level height) :
    (View.mk registry level depth).longest = height := by
  obtain ⟨bound, attained⟩ := highest
  apply le_antisymm
  · refine iSup₂_le fun path declared => ?_
    exact Nat.cast_le.2 (bound path ((declares_iff_chain distinct).1 declared))
  · rcases attained with rfl | ⟨path, chain, rfl⟩
    · simp
    · exact View.length_le_longest ((declares_iff_chain distinct).2 chain)

theorem longest_eq_top_of_unbounded {depth : Nat} (distinct : DistinctNames level)
    (unbounded : Unbounded registry level) : (View.mk registry level depth).longest = ⊤ := by
  refine ENat.eq_top_iff_forall_ge.2 fun bound => ?_
  obtain ⟨path, long, chain⟩ := unbounded bound
  exact le_trans (Nat.cast_le.2 long)
    (View.length_le_longest ((declares_iff_chain distinct).2 chain))

theorem isBounded_of_isHeight {depth height : Nat} (distinct : DistinctNames level)
    (highest : IsHeight registry level height) : (View.mk registry level depth).IsBounded :=
  ⟨height, fun path declared => highest.1 path ((declares_iff_chain distinct).1 declared)⟩

theorem not_isBounded_of_unbounded {depth : Nat} (distinct : DistinctNames level)
    (unbounded : Unbounded registry level) : ¬ (View.mk registry level depth).IsBounded := by
  rintro ⟨bound, short⟩
  obtain ⟨path, long, chain⟩ := unbounded (bound + 1)
  have := short path ((declares_iff_chain distinct).2 chain)
  omega

/-! ## Depths -/

/-- The declared depth, or no limit. -/
def ResourceDecl.cap (resource : ResourceDecl) : ℕ∞ :=
  match resource.depth with
  | some depth => depth
  | none => ⊤

theorem depthOf?_eq_none_iff :
    registry.depthOf? resource = none ↔
      resource.depth = none ∧ registry.height? [resource.name] resource.relations = none := by
  unfold Registry.depthOf?
  cases registry.height? [resource.name] resource.relations <;> cases resource.depth <;> simp

/-- Whether the walk of a resource ends tells whether its declared paths have a bound. -/
theorem height?_collect_cases (closed : Closed declarations) (kept : Kept declarations resource) :
    (∃ height,
      (Registry.collect declarations).height? [resource.name] resource.relations = some height ∧
      IsHeight (Registry.collect declarations) resource.relations height) ∨
    (Registry.collect declarations).height? [resource.name] resource.relations = none ∧
      Unbounded (Registry.collect declarations) resource.relations := by
  have known := closed_iff_knownReferences.1 closed
  cases walk : (Registry.collect declarations).height? [resource.name] resource.relations with
  | some height => exact .inl ⟨height, rfl, isHeight_of_height? walk⟩
  | none =>
    -- The walk starts at the resource, which leads to its own level over the empty path.
    refine .inr ⟨rfl, unbounded_of_height?_eq_none ?_ (known resource kept) ?_ walk⟩
    · intro name other found
      exact known other (resource?_collect_eq_some_iff.1 found).1
    · intro name mem
      cases List.mem_singleton.1 mem
      exact ⟨resource, resource?_collect_eq_some_iff.2 ⟨kept, rfl⟩, [], fun _ chain => chain⟩

/-- The schema of a resource that counts. -/
def schemaOf (declarations : List ResourceDecl) (resource : ResourceDecl) : View where
  registry := Registry.collect declarations
  relations := resource.relations
  depth := ((Registry.collect declarations).depthOf? resource).getD 0

theorem view?_collect (kept : Kept declarations resource) :
    (Registry.collect declarations).view? resource.name =
      some (schemaOf declarations resource) := by
  rw [Registry.view?, resource?_collect_eq_some_iff.2 ⟨kept, rfl⟩]
  rfl

def BoundedOrCapped (declarations : List ResourceDecl) : Prop :=
  ∀ resource, Kept declarations resource → resource.depth = none →
    ∃ view, (Registry.collect declarations).view? resource.name = some view ∧ view.IsBounded

theorem depthOf?_eq_none_iff_not_isBounded (closed : Closed declarations)
    (kept : Kept declarations resource) :
    (Registry.collect declarations).depthOf? resource = none ↔
      resource.depth = none ∧ ¬ (schemaOf declarations resource).IsBounded := by
  rw [depthOf?_eq_none_iff, and_congr_right_iff]
  intro _
  rcases height?_collect_cases closed kept with ⟨height, walk, highest⟩ | ⟨walk, unbounded⟩
  · have bounded : (schemaOf declarations resource).IsBounded :=
      isBounded_of_isHeight resource.distinct highest
    simp [walk, bounded]
  · have endless : ¬ (schemaOf declarations resource).IsBounded :=
      not_isBounded_of_unbounded resource.distinct unbounded
    simp [walk, endless]

theorem boundedOrCapped_iff (closed : Closed declarations) :
    BoundedOrCapped declarations ↔ ∀ resource, Kept declarations resource →
      (Registry.collect declarations).depthOf? resource ≠ none := by
  constructor
  · intro bounded resource kept none
    obtain ⟨uncapped, endless⟩ := (depthOf?_eq_none_iff_not_isBounded closed kept).1 none
    obtain ⟨view, found, short⟩ := bounded resource kept uncapped
    cases (view?_collect kept).symm.trans found
    exact endless short
  · intro depths resource kept uncapped
    refine ⟨_, view?_collect kept, ?_⟩
    by_contra endless
    exact depths resource kept
      ((depthOf?_eq_none_iff_not_isBounded closed kept).2 ⟨uncapped, endless⟩)

theorem depth_schemaOf (closed : Closed declarations) (kept : Kept declarations resource)
    (limited : (Registry.collect declarations).depthOf? resource ≠ none) :
    ((schemaOf declarations resource).depth : ℕ∞) =
      min resource.cap (schemaOf declarations resource).longest := by
  rw [Ne, depthOf?_eq_none_iff] at limited
  rcases height?_collect_cases closed kept with ⟨height, walk, highest⟩ | ⟨walk, unbounded⟩
  · rw [schemaOf, longest_eq_of_isHeight resource.distinct highest]
    cases capped : resource.depth with
    | none => simp [Registry.depthOf?, ResourceDecl.cap, walk, capped]
    | some cap =>
      simp [Registry.depthOf?, ResourceDecl.cap, walk, capped, min_comm, Nat.mono_cast.map_min]
  · rw [schemaOf, longest_eq_top_of_unbounded resource.distinct unbounded]
    cases capped : resource.depth with
    | none => exact absurd ⟨capped, walk⟩ limited
    | some cap => simp [Registry.depthOf?, ResourceDecl.cap, walk, capped]

/-! ## Outcomes -/

theorem checkDepth_eq_ok_iff :
    registry.checkDepth resource = .ok () ↔ registry.depthOf? resource ≠ none := by
  unfold Registry.checkDepth
  cases registry.depthOf? resource <;> simp

theorem checkDepth_eq_error_iff {error : SchemaError} :
    registry.checkDepth resource = .error error ↔
      registry.depthOf? resource = none ∧ error = .unboundedDepth resource.name := by
  unfold Registry.checkDepth
  cases registry.depthOf? resource <;> simp [eq_comm]

theorem relationChecks_eq_ok_iff :
    ((Registry.collect declarations).resources.entries.map Prod.snd).forM (fun resource =>
      (Registry.collect declarations).checkRelations resource.name resource.relations) = .ok () ↔
      NamedPlainly declarations ∧ Closed declarations := by
  simp only [forM_eq_ok_iff, mem_collected_iff, checkRelations_eq_ok_iff, NamedPlainly,
    closed_iff_knownReferences]
  exact ⟨fun checks => ⟨fun resource kept => (checks resource kept).1,
    fun resource kept => (checks resource kept).2⟩,
    fun ⟨plain, known⟩ resource kept => ⟨plain resource kept, known resource kept⟩⟩

theorem depthChecks_eq_ok_iff :
    ((Registry.collect declarations).resources.entries.map Prod.snd).forM
        (Registry.collect declarations).checkDepth = .ok () ↔
      ∀ resource, Kept declarations resource →
        (Registry.collect declarations).depthOf? resource ≠ none := by
  simp only [forM_eq_ok_iff, mem_collected_iff, checkDepth_eq_ok_iff]

theorem build_eq_ok_iff :
    Registry.build declarations = .ok registry ↔
      (NamedPlainly declarations ∧ Closed declarations ∧ BoundedOrCapped declarations) ∧
        registry = Registry.collect declarations := by
  rw [Registry.build, bind_unit_eq_ok_iff, bind_unit_eq_ok_iff, relationChecks_eq_ok_iff,
    depthChecks_eq_ok_iff]
  constructor
  · rintro ⟨⟨plain, closed⟩, depths, same⟩
    exact ⟨⟨plain, closed, (boundedOrCapped_iff closed).2 depths⟩, (Except.ok.inj same).symm⟩
  · rintro ⟨⟨plain, closed, bounded⟩, rfl⟩
    exact ⟨⟨plain, closed⟩, (boundedOrCapped_iff closed).1 bounded, rfl⟩

/-- A resource on its own makes a registry once its own checks pass. -/
theorem build_singleton {depth : Nat}
    (relations : (Registry.collect [resource]).checkRelations resource.name resource.relations =
      .ok ())
    (found : (Registry.collect [resource]).depthOf? resource = some depth) :
    Registry.build [resource] = .ok (Registry.collect [resource]) ∧
      (Registry.collect [resource]).view? resource.name =
        some ⟨Registry.collect [resource], resource.relations, depth⟩ := by
  have kept : Kept [resource] resource := ⟨[], [], rfl, by simp⟩
  have alone : ∀ {other}, Kept [resource] other → other = resource := fun known =>
    List.mem_singleton.1 (mem_collected_iff.2 known)
  constructor
  · refine bind_unit_eq_ok_iff.2 ⟨forM_eq_ok_iff.2 fun other mem => ?_,
      bind_unit_eq_ok_iff.2 ⟨depthChecks_eq_ok_iff.2 fun other known => ?_, rfl⟩⟩
    · rw [alone (mem_collected_iff.1 mem)]
      exact relations
    · rw [alone known, found]
      simp
  · rw [view?_collect kept, schemaOf, found]
    rfl

theorem build_eq_unboundedDepth (plain : NamedPlainly declarations) (closed : Closed declarations)
    (unlimited : ¬ BoundedOrCapped declarations) :
    ∃ resource, Kept declarations resource ∧ resource.depth = none ∧
      ¬ (schemaOf declarations resource).IsBounded ∧
      Registry.build declarations = .error (.unboundedDepth resource.name) := by
  have relations := relationChecks_eq_ok_iff.2 ⟨plain, closed⟩
  rw [boundedOrCapped_iff closed, ← depthChecks_eq_ok_iff] at unlimited
  -- All relations pass, so the error is that of the first resource without a depth.
  cases depths : ((Registry.collect declarations).resources.entries.map Prod.snd).forM
      (Registry.collect declarations).checkDepth with
  | ok value => exact absurd depths unlimited
  | error error =>
    obtain ⟨resource, mem, wrong⟩ := forM_eq_error depths
    obtain ⟨none, rfl⟩ := checkDepth_eq_error_iff.1 wrong
    have kept := mem_collected_iff.1 mem
    obtain ⟨uncapped, endless⟩ := (depthOf?_eq_none_iff_not_isBounded closed kept).1 none
    refine ⟨resource, kept, uncapped, endless, ?_⟩
    simp only [Registry.build, relations, depths, bind, Except.bind]

/-- A registry can be built exactly from declarations with plain names, known references and, where
no depth is declared, a bound on the declared paths.  The depth of a resource is then the smaller of
the declared depth and the length of the longest declared path. -/
theorem build_iff_and_depth_eq_min (declarations : List ResourceDecl) :
    ((∃ registry, Registry.build declarations = .ok registry) ↔
      NamedPlainly declarations ∧ Closed declarations ∧ BoundedOrCapped declarations) ∧
    (∀ registry, Registry.build declarations = .ok registry → ∀ name,
      ((∃ view, registry.view? name = some view) ↔
        ∃ resource, Kept declarations resource ∧ resource.name = name) ∧
      ∀ view, registry.view? name = some view → ∀ resource, Kept declarations resource →
        resource.name = name → (view.depth : ℕ∞) = min resource.cap view.longest) ∧
    (NamedPlainly declarations → Closed declarations → ¬ BoundedOrCapped declarations →
      ∃ resource view, Kept declarations resource ∧ resource.depth = none ∧
        (Registry.collect declarations).view? resource.name = some view ∧ ¬ view.IsBounded ∧
        Registry.build declarations = .error (.unboundedDepth resource.name)) := by
  refine ⟨?_, ?_, ?_⟩
  · constructor
    · rintro ⟨registry, built⟩
      exact (build_eq_ok_iff.1 built).1
    · intro sound
      exact ⟨_, build_eq_ok_iff.2 ⟨sound, rfl⟩⟩
  · intro registry built name
    obtain ⟨⟨-, closed, bounded⟩, rfl⟩ := build_eq_ok_iff.1 built
    refine ⟨⟨?_, ?_⟩, ?_⟩
    · rintro ⟨view, found⟩
      obtain ⟨resource, known, -⟩ := Option.map_eq_some_iff.1 found
      exact ⟨resource, resource?_collect_eq_some_iff.1 known⟩
    · rintro ⟨resource, kept, rfl⟩
      exact ⟨_, view?_collect kept⟩
    · rintro view found resource kept rfl
      cases (view?_collect kept).symm.trans found
      exact depth_schemaOf closed kept ((boundedOrCapped_iff closed).1 bounded resource kept)
  · intro plain closed unlimited
    obtain ⟨resource, kept, uncapped, endless, refused⟩ :=
      build_eq_unboundedDepth plain closed unlimited
    exact ⟨resource, _, kept, uncapped, view?_collect kept, endless, refused⟩

end RelationExpansion
