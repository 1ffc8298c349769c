import RelationExpansion.Proofs.Projection.ExpandedNodes
import RelationExpansion.Proofs.Schema.Building

/-! # How deep expanded nodes are nested

The ceiling of an envelope is a limit of its own: it holds for every set, also for one that no
directives lead to.  Below it the set alone decides, so the expanded nodes are those on the paths of
the set that are short enough (`build_expands_reached`).  How long that is follows the depth of the
schema down to one, where it stops: the ceiling of a schema of depth zero is that of depth one.
-/

namespace RelationExpansion

/-- Whether expanded nodes are nested at most this often: there is a choice of relations to expand,
none of them on a longer path, that the data shows. -/
def RootResult.NestsWithin (most : Nat) (root : RootResult) (data : Json) : Prop :=
  ∃ requested : List String → Prop,
    (∀ path, requested path → path.length ≤ most) ∧ root.Shows requested data

namespace Envelope

variable {view : View} {set : ExpansionSet}

/-- The paths of a set that are no longer than this. -/
def AskedWithin (set : ExpansionSet) (most : Nat) (path : List String) : Prop :=
  (set.get? (Path.ofSegments path)).isSome = true ∧ path.length ≤ most

theorem reaches_iff {path : List String} :
    Projector.Reaches { set := set, ceiling := some (view.depth - 1), schema := some view } path ↔
      path.length ≤ max view.depth 1 := by
  simp only [Projector.Reaches, Option.some.injEq, forall_eq']
  omega

theorem follows_askedWithin :
    Projector.Follows { set := set, ceiling := some (view.depth - 1), schema := some view }
      (AskedWithin set (max view.depth 1)) where
  free := by simp [DotFree]
  asks _ _ _ _ := and_congr_right fun _ => reaches_iff

/-- Whatever the set holds, the relations on its paths are expanded as far down as the depth of the
schema, and those of the root in any case.  All others are collapsed. -/
theorem build_expands_reached (view : View) (set : ExpansionSet) (root : RootResult) (url : String)
    (envelope : Envelope) (dotFree : root.HasDotFreeNames)
    (built : Envelope.build root url set (some view) = .ok envelope) :
    root.Shows (AskedWithin set (max view.depth 1)) envelope.data ∧
      root.NestsWithin (max view.depth 1) envelope.data ∧
      (0 < view.depth → root.NestsWithin view.depth envelope.data) := by
  have shows : root.Shows (AskedWithin set (max view.depth 1)) envelope.data :=
    build_shows follows_askedWithin dotFree built
  have nests : root.NestsWithin (max view.depth 1) envelope.data :=
    ⟨_, fun _ asked => asked.2, shows⟩
  refine ⟨shows, nests, fun positive => ?_⟩
  rwa [Nat.max_eq_left positive] at nests

/-- A set that goes deeper than the schema. -/
def tagsAndArticles : ExpansionSet :=
  OrderedMap.ofList [(⟨"tags"⟩, { limit := 5 }), (⟨"tags.articles"⟩, { limit := 5 })]

theorem build_expands_reached_article :
    let root := RootResult.single (some article.entity)
    let view := { articleView with depth := 1 }
    root.HasDotFreeNames ∧ 0 < view.depth ∧ ∃ envelope,
      Envelope.build root "/articles/1" tagsAndArticles (some view) = .ok envelope ∧
      root.Shows (AskedWithin tagsAndArticles 1) envelope.data ∧
      root.NestsWithin 1 envelope.data := by
  intro root view
  obtain ⟨envelope, built⟩ : ∃ envelope,
      Envelope.build root "/articles/1" tagsAndArticles (some view) = .ok envelope := ⟨_, rfl⟩
  obtain ⟨shows, -, nests⟩ :=
    build_expands_reached view tagsAndArticles root _ envelope hasDotFreeNames_article built
  exact ⟨hasDotFreeNames_article, by decide, envelope, built, shows, nests (by decide)⟩

/-- Articles whose relations may not be expanded. -/
def sealed : ResourceDecl where
  name := "articles"
  depth := some 0
  relations := [("tags", {})]
  distinct := ⟨by decide, trivial, trivial⟩

def sealedView : View := ⟨Registry.collect [sealed], sealed.relations, 0⟩

theorem build_sealed :
    Registry.build [sealed] = .ok sealedView.registry ∧
      sealedView.registry.view? "articles" = some sealedView := by
  have depth : (Registry.collect [sealed]).depthOf? sealed = some 0 := by
    simp [Registry.depthOf?, Registry.height?, Registry.chain?, sealed]
  exact build_singleton rfl depth

/-- At depth zero nothing may be expanded, and still the relations of the root are. -/
theorem expands_at_depth_zero :
    let view := sealedView
    let root := RootResult.single (some article.entity)
    Registry.build [sealed] = .ok view.registry ∧ view.registry.view? "articles" = some view ∧
      root.HasDotFreeNames ∧ ∃ envelope,
        Envelope.build root "/articles/1" tagsAndArticles (some view) = .ok envelope ∧
        ¬ root.NestsWithin view.depth envelope.data := by
  intro view root
  refine ⟨build_sealed.1, build_sealed.2, hasDotFreeNames_article, _, rfl, ?_⟩
  rintro ⟨requested, short, shows⟩
  cases shows with
  | record relations =>
    cases relations with
    | repeated seen => cases seen
    | expanded _ asked => exact absurd (short _ asked) (by decide)
    | collapsed _ _ shown =>
      -- The node of an expanded relation has two members, that of a collapsed one has one.
      have node := Json.object.inj (Option.some.inj shown)
      simpa using congrArg List.length node

end Envelope

end RelationExpansion
