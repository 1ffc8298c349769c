import RelationExpansion.Expansion.ExpansionSet
import RelationExpansion.Projection.Node
import RelationExpansion.Record.Entity
import RelationExpansion.Schema.View

/-! # Projecting entities

The projection of an entity is its wire form with every relation replaced by a node.  A relation is
expanded if the expansion set holds its path and the stack of relations above it is not longer than
the ceiling; the records in an expanded node are projected in the same way, with the part of the set
that lies below the relation.

Counts are checked: where the end of a page lies beyond the largest count there is no projection.
-/

namespace RelationExpansion

/-- What stays the same while one entity is projected. -/
structure Projector where
  set : ExpansionSet
  /-- The longest stack at which relations are still expanded, if there is one. -/
  ceiling : Option Nat := none
  schema : Option View := none
  stack : List String := []

namespace Projector

def allowsExpansion (projector : Projector) : Bool :=
  match projector.ceiling with
  | none => true
  | some most => projector.stack.length ≤ most

/-- The selection for a relation of the entity, if the relation is to be expanded. -/
def selection? (projector : Projector) (relation : String) : Option Selection :=
  if projector.allowsExpansion then projector.set.child? projector.stack relation else none

/-- The projector for the records that a relation leads to. -/
def descend (projector : Projector) (relation : String) : Projector where
  set := projector.set.below (projector.stack ++ [relation])
  ceiling := projector.ceiling
  schema := projector.schema.bind (·.children? relation)
  stack := projector.stack ++ [relation]

/-- The URL of a relation: its route with the identifiers written in, or nothing without a route. -/
def relationUrl (projector : Projector) (relation : String) (parent item : Option String) :
    String :=
  match projector.schema.bind (·.routeTemplate? [relation]) with
  | some template => expandRoute template parent item
  | none => ""

end Projector

/-- The node of a relation, given how to find the data of an expanded one. -/
def Projector.node (projector : Projector) (parent : Option String) (relation : String)
    (related : Related) (data : Selection → Except Overflow Json) : Except Overflow Node :=
  let url := projector.relationUrl relation parent related.itemIdentifier
  match projector.selection? relation with
  | none => .ok (.collapsed url related.totalCount)
  | some selection => do
    let shown ← data selection
    let paginator ← Paginator.ofSelection related.totalCount selection
    .ok (.expanded url paginator shown)

/-- The part of a list of items that a page shows: how many to leave out in front, and how many to
take.  A list as long as the whole collection has not been cut to a page yet; a shorter one has. -/
def pageWindow (length total : Nat) (selection : Selection) : Except Overflow (Nat × Nat) := do
  let start := if length = total then min selection.skip length else 0
  let stop ← Count.add start selection.limit
  pure (start, min stop length - start)

mutual
def projectEntity (projector : Projector) : Entity → Except Overflow Json
  | .plain _ wire => .ok wire
  | .record identifier wire relations =>
    match wire with
    | .object members => do
      let nodes ← projectRelations projector identifier [] relations
      .ok (.object (Assoc.putAll members nodes))
    | other => .ok other

/-- The nodes of the relations; of several relations with one name the first counts. -/
def projectRelations (projector : Projector) (parent : Option String) (done : List String) :
    List (String × Related) → Except Overflow (List (String × Json))
  | [] => .ok []
  | (relation, related) :: rest =>
    if relation ∈ done then projectRelations projector parent done rest
    else do
      let node ← projector.node parent relation related fun selection =>
        projectRelated (projector.descend relation) selection related
      let others ← projectRelations projector parent (relation :: done) rest
      .ok ((relation, node.json) :: others)

/-- The data of an expanded node. -/
def projectRelated (projector : Projector) (selection : Selection) :
    Related → Except Overflow Json
  | .many items total => do
    let (skip, take) ← pageWindow items.length (total.getD items.length) selection
    let data ← projectWindow projector skip take items
    .ok (.array data)
  | .one item => projectEntity projector item
  | .absent => .ok .null

/-- Projects `take` items after the first `skip`. -/
def projectWindow (projector : Projector) :
    Nat → Nat → List Entity → Except Overflow (List Json)
  | _, _, [] => .ok []
  | skip + 1, take, _ :: rest => projectWindow projector skip take rest
  | 0, 0, _ :: _ => .ok []
  | 0, take + 1, item :: rest => do
    let first ← projectEntity projector item
    let others ← projectWindow projector 0 take rest
    .ok (first :: others)
end

/-- Projects a collection in order. -/
def projectAll (projector : Projector) (entities : List Entity) : Except Overflow Json :=
  (entities.mapM (projectEntity projector)).map .array

end RelationExpansion
