import RelationExpansion.Proofs.Projection.ExpandedNodes

/-! # Narrowing the set on the way down

A projector goes on below a relation with the entries below that relation only.  The reference
projector `projectEntityWhole` goes on with the whole set.  The two give the same rendering where no
name holds a dot: every path that is looked up further down lies below the relation, and those paths
are kept (`ExpansionSet.AgreesBelow.descend`).
-/

namespace RelationExpansion

/-! ## Projecting with the whole set -/

/-- The projector for the records that a relation leads to, with every entry of the set. -/
def Projector.descendWhole (projector : Projector) (relation : String) : Projector where
  set := projector.set
  ceiling := projector.ceiling
  schema := projector.schema.bind (·.children? relation)
  stack := projector.stack ++ [relation]

mutual
def projectEntityWhole (projector : Projector) : Entity → Except Overflow Json
  | .plain _ wire => .ok wire
  | .record identifier wire relations =>
    match wire with
    | .object members => do
      let nodes ← projectRelationsWhole projector identifier [] relations
      .ok (.object (Assoc.putAll members nodes))
    | other => .ok other

def projectRelationsWhole (projector : Projector) (parent : Option String) (done : List String) :
    List (String × Related) → Except Overflow (List (String × Json))
  | [] => .ok []
  | (relation, related) :: rest =>
    if relation ∈ done then projectRelationsWhole projector parent done rest
    else do
      let node ← projector.node parent relation related fun selection =>
        projectRelatedWhole (projector.descendWhole relation) selection related
      let others ← projectRelationsWhole projector parent (relation :: done) rest
      .ok ((relation, node.json) :: others)

def projectRelatedWhole (projector : Projector) (selection : Selection) :
    Related → Except Overflow Json
  | .many items total => do
    let (skip, take) ← pageWindow items.length (total.getD items.length) selection
    let data ← projectWindowWhole projector skip take items
    .ok (.array data)
  | .one item => projectEntityWhole projector item
  | .absent => .ok .null

def projectWindowWhole (projector : Projector) :
    Nat → Nat → List Entity → Except Overflow (List Json)
  | _, _, [] => .ok []
  | skip + 1, take, _ :: rest => projectWindowWhole projector skip take rest
  | 0, 0, _ :: _ => .ok []
  | 0, take + 1, item :: rest => do
    let first ← projectEntityWhole projector item
    let others ← projectWindowWhole projector 0 take rest
    .ok (first :: others)
end

def projectAllWhole (projector : Projector) (entities : List Entity) : Except Overflow Json :=
  (entities.mapM (projectEntityWhole projector)).map .array

/-! ## Narrowing makes no difference -/

open ExpansionSet (AgreesBelow)

theorem Projector.node_congr {projector other : Projector} {parent : Option String}
    {relation : String} {related : Related} {data data' : Selection → Except Overflow Json}
    (schema : projector.schema = other.schema)
    (requested : projector.selection? relation = other.selection? relation)
    (below : ∀ selection, data selection = data' selection) :
    projector.node parent relation related data = other.node parent relation related data' := by
  have url : projector.relationUrl relation parent related.itemIdentifier =
      other.relationUrl relation parent related.itemIdentifier := by
    rw [relationUrl, relationUrl, schema]
  rw [node, node, url, requested, funext below]

mutual
theorem projectEntity_eq_whole {projector : Projector} {whole : ExpansionSet}
    (free : DotFree projector.stack) (agrees : AgreesBelow projector.stack projector.set whole) :
    ∀ entity : Entity, entity.HasDotFreeNames →
      projectEntity projector entity = projectEntityWhole { projector with set := whole } entity
  | .plain _ _, _ => by rw [projectEntity, projectEntityWhole]
  | .record identifier wire relations, dotFree => by
    rw [Entity.HasDotFreeNames] at dotFree
    cases wire with
    | object members =>
      rw [projectEntity, projectEntityWhole,
        projectRelations_eq_whole free agrees relations dotFree]
    | _ => rw [projectEntity, projectEntityWhole] <;> simp

theorem projectRelations_eq_whole {projector : Projector} {whole : ExpansionSet}
    (free : DotFree projector.stack) (agrees : AgreesBelow projector.stack projector.set whole) :
    ∀ (relations : List (String × Related)) {parent : Option String} {done : List String},
      RelationsHaveDotFreeNames relations →
      projectRelations projector parent done relations =
        projectRelationsWhole { projector with set := whole } parent done relations
  | [], _, _, _ => by rw [projectRelations, projectRelationsWhole]
  | (relation, related) :: rest, parent, done, dotFree => by
    obtain ⟨undotted, inside, others⟩ := dotFree
    -- The stack that the relation adds is as free of dots as the one above it.
    have longer : DotFree (projector.descend relation).stack :=
      free.append (dotFree_singleton undotted)
    have requested : projector.selection? relation =
        ({ projector with set := whole } : Projector).selection? relation := by
      unfold Projector.selection?
      rw [agrees.child? free undotted]
      rfl
    have node : projector.node parent relation related (fun selection =>
          projectRelated (projector.descend relation) selection related) =
        ({ projector with set := whole } : Projector).node parent relation related fun selection =>
          projectRelatedWhole { projector.descend relation with set := whole } selection related :=
      Projector.node_congr rfl requested
        (projectRelated_eq_whole longer agrees.descend related inside)
    rw [projectRelations, projectRelationsWhole, node,
      projectRelations_eq_whole free agrees rest others,
      projectRelations_eq_whole free agrees rest others]
    rfl

theorem projectRelated_eq_whole {projector : Projector} {whole : ExpansionSet}
    (free : DotFree projector.stack) (agrees : AgreesBelow projector.stack projector.set whole) :
    ∀ related : Related, related.HasDotFreeNames → ∀ selection : Selection,
      projectRelated projector selection related =
        projectRelatedWhole { projector with set := whole } selection related
  | .many items total, dotFree, selection => by
    rw [projectRelated, projectRelatedWhole]
    congr 1
    funext ⟨skip, take⟩
    simp only [projectWindow_eq_whole free agrees items dotFree]
  | .one item, dotFree, _ => by
    rw [projectRelated, projectRelatedWhole, projectEntity_eq_whole free agrees item dotFree]
  | .absent, _, _ => by rw [projectRelated, projectRelatedWhole]

theorem projectWindow_eq_whole {projector : Projector} {whole : ExpansionSet}
    (free : DotFree projector.stack) (agrees : AgreesBelow projector.stack projector.set whole) :
    ∀ (items : List Entity) {skip take : Nat}, ItemsHaveDotFreeNames items →
      projectWindow projector skip take items =
        projectWindowWhole { projector with set := whole } skip take items
  | [], _, _, _ => by rw [projectWindow, projectWindowWhole]
  | _ :: rest, _ + 1, _, dotFree => by
    rw [projectWindow, projectWindowWhole, projectWindow_eq_whole free agrees rest dotFree.2]
  | _ :: _, 0, 0, _ => by rw [projectWindow, projectWindowWhole]
  | item :: rest, 0, take + 1, dotFree => by
    rw [projectWindow, projectWindowWhole, projectEntity_eq_whole free agrees item dotFree.1,
      projectWindow_eq_whole free agrees rest dotFree.2]
end

/-- Narrowing the set at each step leaves every projection as it is. -/
theorem projection_eq_whole (set : ExpansionSet) (ceiling : Option Nat) (schema : Option View)
    (stack : List String) (free : DotFree stack) :
    let projector : Projector := ⟨set, ceiling, schema, stack⟩
    (∀ entity : Entity, entity.HasDotFreeNames →
      projectEntity projector entity = projectEntityWhole projector entity) ∧
    (∀ entities : List Entity, ItemsHaveDotFreeNames entities →
      projectAll projector entities = projectAllWhole projector entities) := by
  intro projector
  have agrees : AgreesBelow projector.stack projector.set set := .refl set
  have single : ∀ entity : Entity, entity.HasDotFreeNames →
      projectEntity projector entity = projectEntityWhole projector entity :=
    projectEntity_eq_whole free agrees
  refine ⟨single, fun entities dotFree => ?_⟩
  have same : entities.mapM (projectEntity projector) =
      entities.mapM (projectEntityWhole projector) := by
    induction entities with
    | nil => rfl
    | cons entity rest ih =>
      rw [List.mapM_cons, List.mapM_cons, single entity dotFree.1, ih dotFree.2]
  rw [projectAll, projectAllWhole, same]

/-- The set leaves out the path in the middle, and the entity lies below a stack itself. -/
theorem projection_eq_whole_article :
    let set : ExpansionSet :=
      OrderedMap.ofList
        [(⟨"blog.tags"⟩, { limit := 5 }), (⟨"blog.tags.articles.tags"⟩, { limit := 5 })]
    let projector : Projector := ⟨set, some 3, some Envelope.articleView, ["blog"]⟩
    DotFree ["blog"] ∧ Envelope.article.entity.HasDotFreeNames ∧
      projectEntity projector Envelope.article.entity =
        projectEntityWhole projector Envelope.article.entity := by
  intro set projector
  have free : DotFree ["blog"] := dotFree_singleton (by decide)
  have dotFree : Envelope.article.entity.HasDotFreeNames :=
    ⟨by decide, ⟨⟨by decide, trivial, trivial⟩, trivial⟩, by decide, trivial, trivial⟩
  exact ⟨free, dotFree, (projection_eq_whole set _ _ _ free).1 _ dotFree⟩

end RelationExpansion
