import RelationExpansion.Proofs.Store.Runs
import RelationExpansion.Proofs.Store.Slots

/-! # What attaching does to a document

Attaching writes the slots of the requested relations and leaves all else as it is
(`attach_eq_ok_iff`).  It comes to a result if every one of these slots can be made.  Which slots are
written, and whether they can be made, depends on the kind and the identifier of the document only.
-/

namespace RelationExpansion

namespace Store

variable {store : Store} {set : ExpansionSet} {stack : List String} {kind relation : String}
  {id : Uuid} {record : Record} {document after : Document} {definition : RelationDef}
  {selection : Selection} {slot : Slot}

/-! ## Requested slots -/

/-- What becomes of a record that is to stand in a slot below a stack. -/
def attached (store : Store) (set : ExpansionSet) (stack : List String) (kind : String) (id : Uuid)
    (record : Record) : Except Disorder Document :=
  store.attach set stack (store.document kind id record)

/-- What becomes of the slot of a relation, if the set asks for the relation at the stack. -/
def requestedSlot (store : Store) (set : ExpansionSet) (stack : List String) (kind : String)
    (id : Uuid) (relation : String) (definition : RelationDef) : Option (Except Disorder Slot) :=
  (set.child? stack relation).map fun selection =>
    populatedSlot definition selection (store.linkedRecords kind id relation definition.target)
      (store.attached set (stack ++ [relation]) definition.target)

/-- The slot that is written for a relation. -/
def writtenSlot (store : Store) (set : ExpansionSet) (stack : List String) (kind : String)
    (id : Uuid) (relation : String) (definition : RelationDef) : Option Slot :=
  (store.requestedSlot set stack kind id relation definition).bind Except.toOption

def writtenSlots (store : Store) (set : ExpansionSet) (stack : List String) (kind : String)
    (id : Uuid) : List (String × Slot) :=
  (store.relations kind).filterMap fun entry =>
    (store.writtenSlot set stack kind id entry.1 entry.2).map (entry.1, ·)

/-- Whether all requested slots of a record can be made. -/
def Attachable (store : Store) (set : ExpansionSet) (stack : List String) (kind : String)
    (id : Uuid) : Prop :=
  ∀ entry ∈ store.relations kind, ∀ outcome,
    store.requestedSlot set stack kind id entry.1 entry.2 = some outcome →
      ∃ slot, outcome = .ok slot

theorem requestedSlot_eq_some_iff {outcome : Except Disorder Slot} :
    store.requestedSlot set stack kind id relation definition = some outcome ↔
      ∃ selection, set.child? stack relation = some selection ∧
        outcome = populatedSlot definition selection
          (store.linkedRecords kind id relation definition.target)
          (store.attached set (stack ++ [relation]) definition.target) := by
  rw [requestedSlot, Option.map_eq_some_iff]
  simp only [eq_comm]

theorem writtenSlot_eq_some_iff :
    store.writtenSlot set stack kind id relation definition = some slot ↔
      ∃ selection, set.child? stack relation = some selection ∧
        populatedSlot definition selection
          (store.linkedRecords kind id relation definition.target)
          (store.attached set (stack ++ [relation]) definition.target) = .ok slot := by
  simp only [writtenSlot, Option.bind_eq_some_iff, requestedSlot_eq_some_iff, toOption_eq_some_iff]
  constructor
  · rintro ⟨_, ⟨selection, asked, rfl⟩, made⟩
    exact ⟨selection, asked, made⟩
  · rintro ⟨selection, asked, made⟩
    exact ⟨_, ⟨selection, asked, rfl⟩, made⟩

/-- Slots are written one after the other, until one of them cannot be made. -/
theorem foldlM_withSlot_eq_ok_iff {made : String → RelationDef → Option (Except Disorder Slot)}
    {entries : List (String × RelationDef)} :
    entries.foldlM (fun populated entry =>
        ((made entry.1 entry.2).map (·.map (populated.withSlot entry.1))).getD (.ok populated))
        document = .ok after ↔
      (∀ entry ∈ entries, ∀ outcome, made entry.1 entry.2 = some outcome →
        ∃ slot, outcome = .ok slot) ∧
      after = { document with
        relations := Assoc.putAll document.relations (entries.filterMap fun entry =>
          ((made entry.1 entry.2).bind Except.toOption).map (entry.1, ·)) } := by
  induction entries generalizing document with
  | nil =>
    obtain ⟨kind, id, attributes, relations⟩ := document
    show (.ok _ : Except Disorder Document) = .ok after ↔ _
    rw [Except.ok.injEq, eq_comm]
    exact (and_iff_right (List.forall_mem_nil _)).symm
  | cons entry rest ih =>
    rw [List.foldlM_cons, bind_eq_ok_iff, List.forall_mem_cons]
    cases outcome : made entry.1 entry.2 with
    | none => simp [outcome, ih]
    | some outcome' =>
      cases outcome' with
      | error disorder => simp [Except.map]
      | ok slot =>
        have here : ∀ other, some (Except.ok slot : Except Disorder Slot) = some other →
            ∃ slot, other = .ok slot := fun _ same => ⟨slot, (Option.some.inj same).symm⟩
        have written : ((some (Except.ok slot : Except Disorder Slot)).map
            (·.map (document.withSlot entry.1))).getD (.ok document) =
              .ok (document.withSlot entry.1 slot) := rfl
        rw [List.filterMap_cons, outcome, written]
        simp only [Except.ok.injEq, exists_eq_left', ih, and_iff_right here]
        rfl

theorem attach_eq_foldlM (store : Store) (set : ExpansionSet) (stack : List String)
    (document : Document) :
    store.attach set stack document =
      (store.relations document.kind).foldlM (fun populated entry =>
        ((store.requestedSlot set stack document.kind document.id entry.1 entry.2).map
          (·.map (populated.withSlot entry.1))).getD (.ok populated)) document := by
  rw [attach]
  refine congrArg (List.foldlM · document (store.relations document.kind)) ?_
  funext populated entry
  rw [requestedSlot]
  split
  · rename_i unasked
    simp [unasked, pure, Except.pure]
  · rename_i selection asked
    simp only [asked, Option.map_some]
    rfl

/-- Attaching comes to a result if every requested slot can be made, and the result does not depend
on what stood in their places. -/
theorem attach_eq_ok_iff :
    store.attach set stack document = .ok after ↔
      store.Attachable set stack document.kind document.id ∧
        after = { document with
          relations := Assoc.putAll document.relations
            (store.writtenSlots set stack document.kind document.id) } := by
  rw [attach_eq_foldlM, foldlM_withSlot_eq_ok_iff]
  rfl

theorem exists_attach_iff :
    (∃ after, store.attach set stack document = .ok after) ↔
      store.Attachable set stack document.kind document.id := by
  simp only [attach_eq_ok_iff, exists_and_left, exists_eq, and_true]

theorem attachable_iff :
    store.Attachable set stack kind id ↔
      ∀ relation definition selection, (relation, definition) ∈ store.relations kind →
        set.child? stack relation = some selection →
        ∃ slot, populatedSlot definition selection
          (store.linkedRecords kind id relation definition.target)
          (store.attached set (stack ++ [relation]) definition.target) = .ok slot := by
  constructor
  · intro attachable relation definition selection mem asked
    exact attachable (relation, definition) mem _
      (requestedSlot_eq_some_iff.2 ⟨selection, asked, rfl⟩)
  · rintro made ⟨relation, definition⟩ mem outcome requested
    obtain ⟨selection, asked, rfl⟩ := requestedSlot_eq_some_iff.1 requested
    exact made relation definition selection mem asked

theorem mem_writtenSlots_iff :
    (relation, slot) ∈ store.writtenSlots set stack kind id ↔
      ∃ definition selection, (relation, definition) ∈ store.relations kind ∧
        set.child? stack relation = some selection ∧
        populatedSlot definition selection
          (store.linkedRecords kind id relation definition.target)
          (store.attached set (stack ++ [relation]) definition.target) = .ok slot := by
  simp only [writtenSlots, List.mem_filterMap]
  constructor
  · rintro ⟨⟨name, definition⟩, mem, written⟩
    obtain ⟨made, requested, same⟩ := Option.map_eq_some_iff.1 written
    cases same
    obtain ⟨selection, asked, made⟩ := writtenSlot_eq_some_iff.1 requested
    exact ⟨definition, selection, mem, asked, made⟩
  · rintro ⟨definition, selection, mem, asked, made⟩
    exact ⟨(relation, definition), mem, Option.map_eq_some_iff.2
      ⟨slot, writtenSlot_eq_some_iff.2 ⟨selection, asked, made⟩, rfl⟩⟩

theorem nodup_keys_writtenSlots (distinct : (Assoc.keys (store.relations kind)).Nodup) :
    (Assoc.keys (store.writtenSlots set stack kind id)).Nodup :=
  (Assoc.keys_filterMap_sublist (store.writtenSlot set stack kind id) _).nodup distinct

/-! ## What an attached document holds -/

/-- A relation that the store does not define, or that the set does not ask for. -/
def Unrequested (store : Store) (set : ExpansionSet) (stack : List String) (kind : String)
    (relation : String) : Prop :=
  ∀ definition, store.relation? kind relation = some definition → set.child? stack relation = none

section Attach

variable (attaches : store.attach set stack document = .ok after)

include attaches

theorem kind_attach : after.kind = document.kind := by
  obtain ⟨-, rfl⟩ := attach_eq_ok_iff.1 attaches
  rfl

theorem id_attach : after.id = document.id := by
  obtain ⟨-, rfl⟩ := attach_eq_ok_iff.1 attaches
  rfl

theorem attributes_attach : after.attributes = document.attributes := by
  obtain ⟨-, rfl⟩ := attach_eq_ok_iff.1 attaches
  rfl

theorem slot_attach_requested (distinct : store.HasDistinctRelations)
    (defined : store.relation? document.kind relation = some definition)
    (asked : set.child? stack relation = some selection) :
    ∃ slot, populatedSlot definition selection
        (store.linkedRecords document.kind document.id relation definition.target)
        (store.attached set (stack ++ [relation]) definition.target) = .ok slot ∧
      Assoc.get? relation after.relations = some slot := by
  obtain ⟨attachable, rfl⟩ := attach_eq_ok_iff.1 attaches
  obtain ⟨slot, made⟩ := attachable_iff.1 attachable relation definition selection
    (Assoc.mem_of_get?_eq_some defined) asked
  have fresh : (Assoc.keys (store.writtenSlots set stack document.kind document.id)).Nodup :=
    nodup_keys_writtenSlots (distinct document.kind)
  have written : Assoc.get? relation (store.writtenSlots set stack document.kind document.id) =
      some slot :=
    Assoc.get?_eq_some_of_mem fresh (mem_writtenSlots_iff.2
      ⟨definition, selection, Assoc.mem_of_get?_eq_some defined, asked, made⟩)
  exact ⟨slot, made, by rw [Assoc.get?_putAll fresh, written, Option.some_or]⟩

/-- What the page of a to-many relation shows has been attached. -/
theorem exists_child_many (distinct : store.HasDistinctRelations) {target : String}
    {page : List (Uuid × Record)} {total : Nat} {entry : Uuid × Record}
    (defined : store.relation? document.kind relation = some ⟨target, .many⟩)
    (asked : set.child? stack relation = some selection)
    (selects : selection.select (store.linkedRecords document.kind document.id relation target) =
      .ok (page, total)) (mem : entry ∈ page) :
    ∃ slot child, Assoc.get? relation after.relations = some slot ∧
      .document child ∈ slot.items ∧
      store.attached set (stack ++ [relation]) target entry.1 entry.2 = .ok child := by
  obtain ⟨slot, made, held⟩ := slot_attach_requested attaches distinct defined asked
  obtain ⟨page', total', children, selects', attached, rfl⟩ := populatedSlot_many_eq_ok_iff.1 made
  cases selects.symm.trans selects'
  obtain ⟨child, shown, made⟩ := exists_mem_of_forall₂ attached.flip mem
  exact ⟨_, child, held, List.mem_map_of_mem shown, made⟩

theorem exists_child_one (distinct : store.HasDistinctRelations) {target : String}
    {entry : Uuid × Record}
    (defined : store.relation? document.kind relation = some ⟨target, .one⟩)
    (asked : set.child? stack relation = some selection)
    (first : (store.linkedRecords document.kind document.id relation target).head? = some entry) :
    ∃ slot child, Assoc.get? relation after.relations = some slot ∧
      .document child ∈ slot.items ∧
      store.attached set (stack ++ [relation]) target entry.1 entry.2 = .ok child := by
  obtain ⟨slot, made, held⟩ := slot_attach_requested attaches distinct defined asked
  rcases populatedSlot_one_eq_ok_iff.1 made with ⟨none, rfl⟩ | ⟨other, child, there, made, rfl⟩
  · rw [none] at first
    cases first
  · cases first.symm.trans there
    exact ⟨_, child, held, List.mem_singleton_self _, made⟩

theorem slot_attach_unrequested
    (unrequested : store.Unrequested set stack document.kind relation) :
    Assoc.get? relation after.relations = Assoc.get? relation document.relations := by
  obtain ⟨-, rfl⟩ := attach_eq_ok_iff.1 attaches
  refine Assoc.get?_putAll_of_not_mem fun written => ?_
  obtain ⟨⟨name, slot⟩, mem, rfl⟩ := List.mem_map.1 written
  obtain ⟨definition, selection, inside, asked, -⟩ := mem_writtenSlots_iff.1 mem
  -- The definition that is read need not be this one, but there is one.
  obtain ⟨other, defined⟩ := Option.isSome_iff_exists.1
    (Assoc.get?_isSome.2 (List.mem_map_of_mem inside))
  rw [unrequested other defined] at asked
  cases asked

theorem slot_attach_cases (found : Assoc.get? relation after.relations = some slot) :
    (relation, slot) ∈ store.writtenSlots set stack document.kind document.id ∨
      store.Unrequested set stack document.kind relation ∧
        Assoc.get? relation document.relations = some slot := by
  obtain ⟨attachable, rfl⟩ := attach_eq_ok_iff.1 attaches
  rcases Assoc.get?_putAll_cases found with written | ⟨absent, kept⟩
  · exact .inl written
  · refine .inr ⟨fun definition defined => ?_, kept⟩
    cases asked : set.child? stack relation with
    | none => rfl
    | some selection =>
      have mem := Assoc.mem_of_get?_eq_some defined
      obtain ⟨slot, made⟩ := attachable_iff.1 attachable relation definition selection mem asked
      have written := mem_writtenSlots_iff.2 ⟨definition, selection, mem, asked, made⟩
      exact absurd (List.mem_map_of_mem written) absent

end Attach

end Store

end RelationExpansion
