import RelationExpansion.Proofs.Projection.Narrowing
import RelationExpansion.Proofs.Projection.PageWindows
import RelationExpansion.Proofs.Store.Populating

/-! # Sets that answer alike

Populating and projecting only ask a set for paths.  Below a relation they only ask for paths below
it, and narrowing two sets to the same stack keeps what they agree on.  So sets that answer alike for
those paths (`ExpansionSet.AlikeFrom`) attach the same documents (`attach_congr`) and give the same
rendering (`projectEntity_congr`), in whatever order their entries came and whatever else they hold.
-/

namespace RelationExpansion

namespace ExpansionSet

variable {left right : ExpansionSet} {stack : List String}

/-- Whether two sets answer alike for every relation at or below a stack. -/
def AlikeFrom (stack : List String) (left right : ExpansionSet) : Prop :=
  ∀ names, names ≠ [] →
    left.get? (Path.ofSegments (stack ++ names)) = right.get? (Path.ofSegments (stack ++ names))

theorem alikeFrom_of_get?_eq (same : ∀ path, left.get? path = right.get? path)
    (stack : List String) : AlikeFrom stack left right :=
  fun _ _ => same _

theorem AlikeFrom.child?_eq (alike : AlikeFrom stack left right) (relation : String) :
    left.child? stack relation = right.child? stack relation :=
  alike [relation] (List.cons_ne_nil _ _)

theorem AlikeFrom.append (alike : AlikeFrom stack left right) (relation : String) :
    AlikeFrom (stack ++ [relation]) left right := by
  intro names _
  rw [List.append_assoc]
  exact alike (relation :: names) (List.cons_ne_nil _ _)

theorem AlikeFrom.below (alike : AlikeFrom stack left right) (above : List String) :
    AlikeFrom stack (left.below above) (right.below above) := by
  intro names nonempty
  rw [ExpansionSet.below, ExpansionSet.below, OrderedMap.get?_filterKeys,
    OrderedMap.get?_filterKeys, alike names nonempty]

theorem mem_keys_congr (same : ∀ path, left.get? path = right.get? path) {path : Path} :
    path ∈ left.keys ↔ path ∈ right.keys := by
  rw [← OrderedMap.contains_iff_mem_keys, ← OrderedMap.contains_iff_mem_keys,
    OrderedMap.contains, OrderedMap.contains, same]

end ExpansionSet

open ExpansionSet (AlikeFrom)

/-! ## Populating -/

namespace Store

variable {store : Store} {left right : ExpansionSet} {stack : List String} {relation : String}

/-- What is attached below a relation is the same, so the requested slots are, one by one. -/
theorem requestedSlot_congr {kind : String} {id : Uuid} (definition : RelationDef)
    (asked : left.child? stack relation = right.child? stack relation)
    (below : ∀ selection, left.child? stack relation = some selection → ∀ document,
      store.attach left (stack ++ [relation]) document =
        store.attach right (stack ++ [relation]) document) :
    store.requestedSlot left stack kind id relation definition =
      store.requestedSlot right stack kind id relation definition := by
  rw [requestedSlot, requestedSlot, ← asked]
  cases request : left.child? stack relation with
  | none => rfl
  | some selection =>
    have children : store.attached left (stack ++ [relation]) definition.target =
        store.attached right (stack ++ [relation]) definition.target := by
      funext id record
      exact below selection request _
    rw [Option.map_some, Option.map_some, children]

theorem attach_congr {stack : List String} (alike : AlikeFrom stack left right)
    (document : Document) :
    store.attach left stack document = store.attach right stack document := by
  have slots : store.requestedSlot left stack document.kind document.id =
      store.requestedSlot right stack document.kind document.id := by
    funext relation definition
    refine requestedSlot_congr _ (alike.child?_eq relation) fun selection asked document => ?_
    -- The stack grows only where the set asks for a relation, which it does not do for ever.
    have short := ExpansionSet.length_lt_maxDepth asked
    exact attach_congr (alike.append relation) document
  rw [attach_eq_foldlM, attach_eq_foldlM, slots]
termination_by left.maxDepth - stack.length
decreasing_by
  simp only [List.length_append, List.length_singleton]
  omega

/-- One slot only depends on what the sets say of its relation and below it. -/
theorem slot_attach_congr (asked : left.child? stack relation = right.child? stack relation)
    (alike : AlikeFrom (stack ++ [relation]) left right) {document after after' : Document}
    (attaches : store.attach left stack document = .ok after)
    (attaches' : store.attach right stack document = .ok after') :
    Assoc.get? relation after.relations = Assoc.get? relation after'.relations := by
  have agree : store.writtenSlot left stack document.kind document.id relation =
      store.writtenSlot right stack document.kind document.id relation := by
    funext definition
    exact congrArg (Option.bind · _) (requestedSlot_congr _ asked fun _ _ => attach_congr alike)
  obtain ⟨-, rfl⟩ := attach_eq_ok_iff.1 attaches
  obtain ⟨-, rfl⟩ := attach_eq_ok_iff.1 attaches'
  exact Assoc.get?_putAll_filterMap_congr agree _ rfl

theorem populate_congr (same : ∀ path, left.get? path = right.get? path)
    {roots populated : List Document} :
    store.populate roots left = .ok populated ↔ store.populate roots right = .ok populated := by
  have allowed : ∀ set : ExpansionSet,
      (set.isEmpty = true ∨ ∀ root ∈ roots, store.checkPaths root.kind set = .ok ()) ↔
        ∀ root ∈ roots, ∀ path ∈ set.keys, (store.follow? root.kind path.segments).isSome = true := by
    intro set
    simp only [← checkPaths_eq_ok_iff, or_iff_right_iff_imp]
    exact fun nothing _ _ => checkPaths_of_isEmpty nothing
  have attached : store.attach left [] = store.attach right [] :=
    funext (attach_congr (ExpansionSet.alikeFrom_of_get?_eq same []))
  rw [populate_eq_ok_iff, populate_eq_ok_iff, allowed, allowed, attached]
  simp only [ExpansionSet.mem_keys_congr same]

end Store

/-! ## Projecting -/

namespace Projector

variable {projector other : Projector} {relation : String} {parent : Option String}

/-- Whether two projectors differ in their sets at most, and these answer alike from the stack on. -/
structure Alike (projector other : Projector) : Prop where
  ceiling : projector.ceiling = other.ceiling
  schema : projector.schema = other.schema
  stack : projector.stack = other.stack
  sets : AlikeFrom projector.stack projector.set other.set

theorem Alike.selection?_eq (alike : projector.Alike other) (relation : String) :
    projector.selection? relation = other.selection? relation := by
  have allows : projector.allowsExpansion = other.allowsExpansion := by
    rw [allowsExpansion, allowsExpansion, alike.ceiling, alike.stack]
  rw [selection?, selection?, allows, alike.sets.child?_eq, alike.stack]

theorem Alike.descend (alike : projector.Alike other) (relation : String) :
    (projector.descend relation).Alike (other.descend relation) where
  ceiling := alike.ceiling
  schema := by rw [Projector.descend, Projector.descend, alike.schema]
  stack := by rw [Projector.descend, Projector.descend, alike.stack]
  sets := by
    rw [Projector.descend, Projector.descend, ← alike.stack]
    exact (alike.sets.append relation).below _

end Projector

mutual
theorem projectEntity_congr {projector other : Projector} (alike : projector.Alike other) :
    ∀ entity : Entity, projectEntity projector entity = projectEntity other entity
  | .plain _ _ => by rw [projectEntity, projectEntity]
  | .record identifier wire relations => by
    cases wire with
    | object members =>
      rw [projectEntity, projectEntity, projectRelations_congr alike relations]
    | _ => rw [projectEntity, projectEntity] <;> simp

theorem projectRelations_congr {projector other : Projector} (alike : projector.Alike other) :
    ∀ (relations : List (String × Related)) {parent : Option String} {done : List String},
      projectRelations projector parent done relations =
        projectRelations other parent done relations
  | [], _, _ => by rw [projectRelations, projectRelations]
  | (relation, related) :: rest, parent, done => by
    have node : projector.node parent relation related (fun selection =>
          projectRelated (projector.descend relation) selection related) =
        other.node parent relation related fun selection =>
          projectRelated (other.descend relation) selection related :=
      Projector.node_congr alike.schema (alike.selection?_eq relation)
        (projectRelated_congr (alike.descend relation) related)
    rw [projectRelations, projectRelations, node, projectRelations_congr alike rest,
      projectRelations_congr alike rest]

theorem projectRelated_congr {projector other : Projector} (alike : projector.Alike other) :
    ∀ (related : Related) (selection : Selection),
      projectRelated projector selection related = projectRelated other selection related
  | .many items total, selection => by
    rw [projectRelated, projectRelated]
    simp only [projectWindow_congr alike items]
  | .one item, _ => by rw [projectRelated, projectRelated, projectEntity_congr alike item]
  | .absent, _ => by rw [projectRelated, projectRelated]

theorem projectWindow_congr {projector other : Projector} (alike : projector.Alike other) :
    ∀ (items : List Entity) {skip take : Nat},
      projectWindow projector skip take items = projectWindow other skip take items
  | [], _, _ => by rw [projectWindow, projectWindow]
  | _ :: rest, _ + 1, _ => by
    rw [projectWindow, projectWindow, projectWindow_congr alike rest]
  | _ :: _, 0, 0 => by rw [projectWindow, projectWindow]
  | item :: rest, 0, take + 1 => by
    rw [projectWindow, projectWindow, projectEntity_congr alike item,
      projectWindow_congr alike rest]
end

theorem projectAll_congr {projector other : Projector} (alike : projector.Alike other)
    (entities : List Entity) : projectAll projector entities = projectAll other entities := by
  rw [projectAll, projectAll, funext (projectEntity_congr alike)]

/-- The node of a relation only depends on what the sets say of it and below it. -/
theorem relationNode_congr {projector other : Projector} {parent : Option String}
    {relation : String} (schema : projector.schema = other.schema)
    (asked : projector.selection? relation = other.selection? relation)
    (below : (projector.descend relation).Alike (other.descend relation)) (related : Related) :
    projector.relationNode parent relation related = other.relationNode parent relation related :=
  Projector.node_congr schema asked (projectRelated_congr below related)

end RelationExpansion
