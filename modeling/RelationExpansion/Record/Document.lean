import RelationExpansion.Record.Entity
import RelationExpansion.Record.Uuid

/-! # Documents

A document is a stored record with slots for its relations.  A slot holds documents, or references
to records that have not been loaded.
-/

namespace RelationExpansion

/-- The fields of a record, in order. -/
abbrev Record := List (String × Json)

mutual
structure Document where
  kind : String
  id : Uuid
  attributes : Record
  relations : List (String × Slot)

/-- The content of a relation; `total` is the size of a relation of which `items` is one page. -/
inductive Slot where
  | many (items : List Item) (total : Option Nat)
  | one (item : Item)
  | vacant

inductive Item where
  | document (document : Document)
  | reference (value : Json)
end

instance : Inhabited Document := ⟨⟨"", default, [], []⟩⟩

instance : Inhabited Slot := ⟨.vacant⟩

instance : Inhabited Item := ⟨.reference .null⟩

namespace Item

def ofId (id : Uuid) : Item := .reference (.string id.text)

end Item

namespace Document

/-- The document of a record without its relations.  The identifier is no attribute: the last field
takes its place. -/
def ofRecord (kind : String) (id : Uuid) (record : Record) : Document :=
  ⟨kind, id, Assoc.eraseSwap "id" record, []⟩

def withSlot (document : Document) (relation : String) (slot : Slot) : Document :=
  { document with relations := Assoc.put relation slot document.relations }

theorem foldl_withSlot (document : Document) (slots : List (String × Slot)) :
    slots.foldl (fun grown entry => grown.withSlot entry.1 entry.2) document =
      { document with relations := Assoc.putAll document.relations slots } := by
  induction slots generalizing document with
  | nil => cases document; rfl
  | cons entry rest ih => exact ih (document.withSlot entry.1 entry.2)

def attribute? (document : Document) (name : String) : Option Json :=
  if name = "id" then none else Assoc.get? name document.attributes

def relationNames (document : Document) : List String := Assoc.keys document.relations

end Document

/-! ## Wire form -/

mutual
/-- The identifier, the attributes and the relations as one object.  A later field of the same
name replaces an earlier one. -/
def Document.wire : Document → Json
  | ⟨_, id, attributes, relations⟩ =>
    .object (Assoc.putAll (Assoc.putAll [("id", .string id.text)] attributes)
      (slotWires relations))

def slotWires : List (String × Slot) → List (String × Json)
  | [] => []
  | (name, slot) :: rest => (name, slot.wire) :: slotWires rest

def Slot.wire : Slot → Json
  | .many items _ => .array (itemWires items)
  | .one item => item.wire
  | .vacant => .null

def itemWires : List Item → List Json
  | [] => []
  | item :: rest => item.wire :: itemWires rest

def Item.wire : Item → Json
  | .document document => document.wire
  | .reference value => value
end

/-! ## Documents as entities -/

mutual
def Document.entity : Document → Entity
  | ⟨kind, id, attributes, relations⟩ =>
    .record (some id.text) (Document.wire ⟨kind, id, attributes, relations⟩)
      (slotEntities relations)

def slotEntities : List (String × Slot) → List (String × Related)
  | [] => []
  | (name, slot) :: rest => (name, slot.related) :: slotEntities rest

def Slot.related : Slot → Related
  | .many items total => .many (itemEntities items) total
  | .one item => .one item.entity
  | .vacant => .absent

def itemEntities : List Item → List Entity
  | [] => []
  | item :: rest => item.entity :: itemEntities rest

def Item.entity : Item → Entity
  | .document document => document.entity
  | .reference value => value.entity
end

namespace Document

def related (document : Document) (relation : String) : Related :=
  ((Assoc.get? relation document.relations).map Slot.related).getD .absent

end Document

end RelationExpansion
