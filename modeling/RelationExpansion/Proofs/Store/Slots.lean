import RelationExpansion.Proofs.Store.Arranging
import RelationExpansion.Store.Populate

/-! # Populated slots

The slot of a to-many relation holds the documents of one page, and the slot of a to-one relation the
document of the first record.  There is no slot if the records cannot be sorted, or if one of the
records has no document.
-/

namespace RelationExpansion

namespace Slot

def items : Slot → List Item
  | .many items _ => items
  | .one item => [item]
  | .vacant => []

end Slot

namespace Store

variable {store : Store} {target : String} {definition : RelationDef} {selection : Selection}
  {candidates : List (Uuid × Record)} {child : Uuid → Record → Except Disorder Document}
  {slot : Slot}

/-! ## When there is a slot -/

theorem populatedSlot_many_eq_ok_iff :
    populatedSlot ⟨target, .many⟩ selection candidates child = .ok slot ↔
      ∃ page total documents, selection.select candidates = .ok (page, total) ∧
        List.Forall₂ (fun entry document => child entry.1 entry.2 = .ok document) page documents ∧
        slot = .many (documents.map Item.document) (some total) := by
  simp only [populatedSlot, bind_eq_ok_iff, mapM_eq_ok_iff, Prod.exists]
  simp only [pure, Except.pure, Except.ok.injEq, exists_and_left, eq_comm]

theorem populatedSlot_one_eq_ok_iff :
    populatedSlot ⟨target, .one⟩ selection candidates child = .ok slot ↔
      (candidates = [] ∧ slot = .vacant) ∨ ∃ first document, candidates.head? = some first ∧
        child first.1 first.2 = .ok document ∧ slot = .one (.document document) := by
  cases candidates with
  | nil => simp [populatedSlot, pure, Except.pure, eq_comm]
  | cons first rest =>
    rw [populatedSlot, map_eq_ok_iff]
    simp [eq_comm]

theorem exists_populatedSlot_many_iff :
    (∃ slot, populatedSlot ⟨target, .many⟩ selection candidates child = .ok slot) ↔
      ∃ page total, selection.select candidates = .ok (page, total) ∧
        ∀ entry ∈ page, ∃ document, child entry.1 entry.2 = .ok document := by
  simp only [populatedSlot_many_eq_ok_iff, ← exists_mapM_iff, mapM_eq_ok_iff]
  constructor
  · rintro ⟨_, page, total, documents, selects, made, -⟩
    exact ⟨page, total, selects, documents, made⟩
  · rintro ⟨page, total, selects, documents, made⟩
    exact ⟨_, page, total, documents, selects, made, rfl⟩

theorem exists_populatedSlot_one_iff :
    (∃ slot, populatedSlot ⟨target, .one⟩ selection candidates child = .ok slot) ↔
      ∀ entry, candidates.head? = some entry →
        ∃ document, child entry.1 entry.2 = .ok document := by
  cases candidates with
  | nil => simp [populatedSlot, pure, Except.pure]
  | cons first rest => simp [populatedSlot, map_eq_ok_iff]

/-! ## What a slot holds -/

/-- A populated slot holds the documents of candidates, and nothing else.  Those of a to-many
relation match the filter; a to-one relation holds its first candidate, which need not. -/
theorem mem_items_populatedSlot {item : Item}
    (made : populatedSlot definition selection candidates child = .ok slot)
    (mem : item ∈ slot.items) :
    ∃ entry ∈ candidates, ∃ document, child entry.1 entry.2 = .ok document ∧
      item = .document document ∧
      (definition.cardinality = .many → selection.admits entry.2 = true) ∧
      (definition.cardinality = .one → candidates.head? = some entry) := by
  obtain ⟨target, cardinality⟩ := definition
  cases cardinality with
  | many =>
    obtain ⟨page, total, documents, selects, children, rfl⟩ := populatedSlot_many_eq_ok_iff.1 made
    obtain ⟨document, inside, rfl⟩ := List.mem_map.1 mem
    obtain ⟨entry, shown, child⟩ := exists_mem_of_forall₂ children inside
    obtain ⟨linked, admitted⟩ := Selection.mem_of_mem_select selects shown
    exact ⟨entry, linked, document, child, rfl, fun _ => admitted, nofun⟩
  | one =>
    rcases populatedSlot_one_eq_ok_iff.1 made with ⟨-, rfl⟩ | ⟨first, document, here, child, rfl⟩
    · cases mem
    · cases List.mem_singleton.1 mem
      exact ⟨first, List.mem_of_mem_head? here, document, child, rfl, nofun, fun _ => here⟩

theorem mem_linkedRecords_iff {kind relation : String} {id linked : Uuid} {record : Record} :
    (linked, record) ∈ store.linkedRecords kind id relation target ↔
      linked ∈ store.links ⟨kind, id, relation⟩ ∧ store.record? target linked = some record := by
  simp only [linkedRecords, List.mem_filterMap, Option.map_eq_some_iff, Prod.mk.injEq]
  constructor
  · rintro ⟨other, mem, found, here, rfl, rfl⟩
    exact ⟨mem, here⟩
  · rintro ⟨mem, here⟩
    exact ⟨linked, mem, record, here, rfl, rfl⟩

end Store

end RelationExpansion
