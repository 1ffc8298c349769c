import RelationExpansion.Expansion.ExpansionSet
import RelationExpansion.Request.Failure
import RelationExpansion.Store.Select

/-! # Populating documents

Populating replaces references by the documents they stand for, for all relations in an expansion
set and at every depth.  It is refused as a whole if the set names a relation that is not defined,
and it breaks off if the records of a relation cannot be sorted.

Attaching goes one relation deeper with every step and only along paths of the set, so it comes to
an end whatever the links are.
-/

namespace RelationExpansion

/-- Why something that may fail for reasons of its own has no result: it has failed, or a sort has
broken off on the way. -/
inductive Unfinished (ε : Type) where
  | failed (error : ε)
  | unsorted (error : Disorder)
  deriving DecidableEq, Repr, Inhabited

namespace Store

/-! ## Checking paths -/

/-- Follows the segments of a path through the targets of relations. -/
def checkSegments (store : Store) : String → List String → Except PopulateError Unit
  | _, [] => .ok ()
  | kind, segment :: rest =>
    match store.relation? kind segment with
    | some definition => checkSegments store definition.target rest
    | none => .error (.unknownRelation kind segment)

def checkPaths (store : Store) (kind : String) (set : ExpansionSet) : Except PopulateError Unit :=
  set.keys.forM fun path => store.checkSegments kind path.segments

/-! ## Attaching records -/

/-- The records that a relation of a record links to; links to records that are not there are
skipped. -/
def linkedRecords (store : Store) (kind : String) (id : Uuid) (relation target : String) :
    List (Uuid × Record) :=
  (store.links ⟨kind, id, relation⟩).filterMap fun linked =>
    (store.record? target linked).map fun record => (linked, record)

/-- The slot of a requested relation, given how a linked record becomes a document.  A to-many
relation shows the selected page, a to-one relation the first record. -/
def populatedSlot (definition : RelationDef) (selection : Selection)
    (candidates : List (Uuid × Record)) (child : Uuid → Record → Except Disorder Document) :
    Except Disorder Slot :=
  match definition.cardinality with
  | .many => do
    let (page, total) ← selection.select candidates
    let documents ← page.mapM fun entry => child entry.1 entry.2
    pure (.many (documents.map Item.document) (some total))
  | .one =>
    match candidates with
    | [] => pure .vacant
    | first :: _ => (child first.1 first.2).map fun document => .one (.document document)

/-- Populates the requested relations of a document that was reached over a stack of relations. -/
def attach (store : Store) (set : ExpansionSet) (stack : List String) (document : Document) :
    Except Disorder Document :=
  (store.relations document.kind).foldlM
    (fun populated entry =>
      match _requested : set.child? stack entry.1 with
      | none => pure populated
      | some selection =>
        let candidates := store.linkedRecords document.kind document.id entry.1 entry.2.target
        let slot := populatedSlot entry.2 selection candidates fun id record =>
          attach store set (stack ++ [entry.1]) (store.document entry.2.target id record)
        slot.map (populated.withSlot entry.1))
    document
termination_by set.maxDepth - stack.length
decreasing_by
  have short := ExpansionSet.length_lt_maxDepth _requested
  simp only [List.length_append, List.length_singleton]
  omega

/-- Populates documents; an empty set leaves them as they are. -/
def populate (store : Store) (roots : List Document) (set : ExpansionSet) :
    Except (Unfinished PopulateError) (List Document) :=
  if set.isEmpty then .ok roots
  else do
    (roots.forM fun root => store.checkPaths root.kind set).mapError Unfinished.failed
    (roots.mapM (store.attach set [])).mapError Unfinished.unsorted

end Store

end RelationExpansion
