import RelationExpansion.Record.Document

/-! # Stores

A store holds the records of each kind, the relations defined between kinds, and the links between
records.  Records and relations keep the order in which they came.  A link list is kept for every
kind, record and relation, and is empty until a link is made.

Two stores are equal exactly when they answer every question alike.
-/

namespace RelationExpansion

inductive Cardinality where
  | one
  | many
  deriving DecidableEq, Repr, Inhabited

/-- A relation from one kind of record to another. -/
structure RelationDef where
  target : String
  cardinality : Cardinality
  deriving DecidableEq, Repr, Inhabited

/-- What a link hangs on: a relation of one record. -/
structure LinkKey where
  kind : String
  id : Uuid
  relation : String
  deriving DecidableEq, Repr, Inhabited

structure Store where
  records : String → List (Uuid × Record)
  relations : String → List (String × RelationDef)
  links : LinkKey → List Uuid

/-- Why a link was not made. -/
inductive LinkError where
  | undefinedRelation (kind relation : String)
  | missingRecord (kind : String) (id : Uuid)
  deriving DecidableEq, Repr, Inhabited

namespace LinkError

def message : LinkError → String
  | .undefinedRelation kind relation =>
    "Relation '" ++ relation ++ "' is not defined on '" ++ kind ++ "'"
  | .missingRecord kind id => kind ++ " '" ++ id.text ++ "' not found"

end LinkError

/-- A function changed at one point. -/
def update {κ : Type u} {α : Type v} [DecidableEq κ] (f : κ → α) (key : κ) (value : α) : κ → α :=
  fun other => if other = key then value else f other

namespace Store

def empty : Store where
  records := fun _ => []
  relations := fun _ => []
  links := fun _ => []

instance : Inhabited Store := ⟨empty⟩

/-! ## Reading -/

def record? (store : Store) (kind : String) (id : Uuid) : Option Record :=
  Assoc.get? id (store.records kind)

def relation? (store : Store) (kind relation : String) : Option RelationDef :=
  Assoc.get? relation (store.relations kind)

def count (store : Store) (kind : String) : Nat := (store.records kind).length

/-- The slot of a relation with references to all linked records. -/
def referenceSlot (store : Store) (kind : String) (id : Uuid) (relation : String)
    (definition : RelationDef) : Slot :=
  let linked := store.links ⟨kind, id, relation⟩
  match definition.cardinality with
  | .many => .many (linked.map Item.ofId) none
  | .one =>
    match linked with
    | [] => .vacant
    | first :: _ => .one (Item.ofId first)

/-- The document of a record, with references for all relations defined on its kind. -/
def document (store : Store) (kind : String) (id : Uuid) (record : Record) : Document :=
  (store.relations kind).foldl
    (fun document entry =>
      document.withSlot entry.1 (store.referenceSlot kind id entry.1 entry.2))
    (Document.ofRecord kind id record)

/-- The slots of a record that has not been populated. -/
def referenceSlots (store : Store) (kind : String) (id : Uuid) : List (String × Slot) :=
  (store.relations kind).map fun entry =>
    (entry.1, store.referenceSlot kind id entry.1 entry.2)

theorem document_eq (store : Store) (kind : String) (id : Uuid) (record : Record) :
    store.document kind id record =
      { Document.ofRecord kind id record with
        relations := Assoc.putAll [] (store.referenceSlots kind id) } := by
  have written := Document.foldl_withSlot (Document.ofRecord kind id record)
    (store.referenceSlots kind id)
  rwa [referenceSlots, List.foldl_map] at written

@[simp]
theorem kind_document (store : Store) (kind : String) (id : Uuid) (record : Record) :
    (store.document kind id record).kind = kind := by
  rw [document_eq]
  rfl

@[simp]
theorem id_document (store : Store) (kind : String) (id : Uuid) (record : Record) :
    (store.document kind id record).id = id := by
  rw [document_eq]
  rfl

def find? (store : Store) (kind : String) (id : Uuid) : Option Document :=
  (store.record? kind id).map (store.document kind id)

/-! ## Writing -/

/-- Defines a relation, or redefines it in its place. -/
def define (store : Store) (kind relation : String) (definition : RelationDef) : Store :=
  let relations := Assoc.put relation definition (store.relations kind)
  { store with relations := update store.relations kind relations }

/-- The fields that are stored for a new record: its identifier, the given ones, and the time of
creation unless it is given. -/
def stamp (id : Uuid) (now : String) (record : Record) : Record :=
  let identified := Assoc.put "id" (.string id.text) record
  match Assoc.get? "created_at" identified with
  | some _ => identified
  | none => Assoc.put "created_at" (.string now) identified

/-- Stores a record of a kind under a new identifier, at the time `now`, and gives its document. -/
def create (store : Store) (id : Uuid) (now kind : String) (record : Record) : Document × Store :=
  let stored := stamp id now record
  let records := Assoc.put id stored (store.records kind)
  let grown := { store with records := update store.records kind records }
  (grown.document kind id stored, grown)

/-- The link list after a link: a to-one relation is replaced, and a to-many relation takes a new
target at the end. -/
def linkedTo (cardinality : Cardinality) (target : Uuid) (linked : List Uuid) : List Uuid :=
  match cardinality with
  | .one => [target]
  | .many => if target ∈ linked then linked else linked ++ [target]

/-- Links a record to another.  The relation must be defined, and both records must be there. -/
def link (store : Store) (kind : String) (id : Uuid) (relation : String) (target : Uuid) :
    Except LinkError Store :=
  match store.relation? kind relation with
  | none => .error (.undefinedRelation kind relation)
  | some definition =>
    if (store.record? kind id).isNone then .error (.missingRecord kind id)
    else if (store.record? definition.target target).isNone then
      .error (.missingRecord definition.target target)
    else
      let key : LinkKey := ⟨kind, id, relation⟩
      let linked := linkedTo definition.cardinality target (store.links key)
      .ok { store with links := update store.links key linked }

end Store

end RelationExpansion
