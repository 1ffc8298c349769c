import RelationExpansion.Proofs.Projection.ExpandedNodes
import RelationExpansion.Proofs.Projection.PageWindows

/-! # The node of one relation

A rendered entity holds the node of each of its relations under the name of the relation
(`node_of_projectEntity`), whatever its other relations are.  The node tells the number of related
records, as a count where it is collapsed and in the paginator where it is expanded.
-/

namespace RelationExpansion

variable {projector : Projector} {parent : Option String} {relation : String} {related : Related}
  {selection : Selection}

/-! ## One node -/

theorem relationNode_collapsed (unasked : projector.selection? relation = none) :
    projector.relationNode parent relation related =
      .ok (.collapsed (projector.relationUrl relation parent related.itemIdentifier)
        related.totalCount) := by
  rw [Projector.relationNode, Projector.node, unasked]

theorem relationNode_expanded {node : Node} (asked : projector.selection? relation = some selection)
    (made : projector.relationNode parent relation related = .ok node) :
    ∃ paginator data, node = .expanded
        (projector.relationUrl relation parent related.itemIdentifier) paginator data ∧
      Paginator.ofSelection related.totalCount selection = .ok paginator ∧
      projectRelated (projector.descend relation) selection related = .ok data := by
  rw [Projector.relationNode, Projector.node, asked] at made
  obtain ⟨data, shown, made⟩ := bind_eq_ok_iff.1 made
  obtain ⟨paginator, paginated, made⟩ := bind_eq_ok_iff.1 made
  cases made
  exact ⟨paginator, data, rfl, paginated, shown⟩

theorem totalEntries_ofSelection {total : Nat} {paginator : Paginator}
    (paginated : Paginator.ofSelection total selection = .ok paginator) :
    paginator.totalEntries = total := by
  obtain ⟨page, -, made⟩ := bind_eq_ok_iff.1 paginated
  cases made
  rfl

/-! ## The nodes of an entity -/

theorem get?_projectRelations {done : List String} {relations : List (String × Related)}
    {nodes : List (String × Json)}
    (projected : projectRelations projector parent done relations = .ok nodes)
    (fresh : relation ∉ done) (found : Assoc.get? relation relations = some related) :
    ∃ node, projector.relationNode parent relation related = .ok node ∧
      Assoc.get? relation nodes = some node.json := by
  induction relations generalizing done nodes with
  | nil => cases found
  | cons entry rest ih =>
    obtain ⟨name, first⟩ := entry
    rw [projectRelations] at projected
    by_cases seen : name ∈ done
    · have other : name ≠ relation := fun same => fresh (same ▸ seen)
      rw [if_pos seen] at projected
      rw [Assoc.get?, if_neg other] at found
      exact ih projected fresh found
    · rw [if_neg seen] at projected
      obtain ⟨node, here, projected⟩ := bind_eq_ok_iff.1 projected
      obtain ⟨others, later, projected⟩ := bind_eq_ok_iff.1 projected
      cases projected
      by_cases same : name = relation
      · subst same
        simp only [Assoc.get?, if_true, Option.some.injEq] at found
        subst found
        exact ⟨node, here, by simp [Assoc.get?]⟩
      · rw [Assoc.get?, if_neg same] at found
        obtain ⟨own, made, held⟩ := ih later (by simp [Ne.symm same, fresh]) found
        exact ⟨own, made, by simpa [Assoc.get?, same] using held⟩

/-- The nodes come in the order in which their relations are first named. -/
theorem keys_projectRelations_eq {done : List String} {relations : List (String × Related)}
    {nodes : List (String × Json)}
    (projected : projectRelations projector parent done relations = .ok nodes) :
    Assoc.keys nodes = ((Assoc.keys relations).filter (· ∉ done)).eraseDups := by
  induction relations generalizing done nodes with
  | nil =>
    rw [projectRelations] at projected
    cases projected
    rfl
  | cons entry rest ih =>
    obtain ⟨name, first⟩ := entry
    rw [projectRelations] at projected
    by_cases seen : name ∈ done
    · rw [if_pos seen] at projected
      simpa [Assoc.keys, seen] using ih projected
    · rw [if_neg seen] at projected
      obtain ⟨node, -, projected⟩ := bind_eq_ok_iff.1 projected
      obtain ⟨others, later, projected⟩ := bind_eq_ok_iff.1 projected
      cases projected
      -- What has been seen now is what the duplicates of the first name are.
      have unseen : ((Assoc.keys rest).filter (· ∉ done)).filter (fun other => !other == name) =
          (Assoc.keys rest).filter (· ∉ name :: done) := by
        simp [List.filter_filter, beq_eq_decide]
      have order := ih later
      simp only [Assoc.keys, List.map_cons] at order unseen ⊢
      rw [List.filter_cons_of_pos (by simpa using seen), List.eraseDups_cons, unseen, order]

theorem exists_nodes_of_projectEntity {identifier : Option String} {fields : List (String × Json)}
    {relations : List (String × Related)} {shown : Json}
    (projected : projectEntity projector (.record identifier (.object fields) relations) =
      .ok shown) :
    ∃ nodes, projectRelations projector identifier [] relations = .ok nodes ∧
      shown = .object (Assoc.putAll fields nodes) := by
  rw [projectEntity] at projected
  obtain ⟨nodes, made, projected⟩ := bind_eq_ok_iff.1 projected
  cases projected
  exact ⟨nodes, made, rfl⟩

/-- A rendered record holds the node of every relation. -/
theorem node_of_projectEntity_record {identifier : Option String} {fields : List (String × Json)}
    {relations : List (String × Related)} {shown : Json}
    (projected : projectEntity projector (.record identifier (.object fields) relations) = .ok shown)
    (found : Assoc.get? relation relations = some related) :
    ∃ members node, shown = .object members ∧ Assoc.get? relation members = some node.json ∧
      projector.relationNode identifier relation related = .ok node := by
  obtain ⟨nodes, made, rfl⟩ := exists_nodes_of_projectEntity projected
  obtain ⟨node, here, json⟩ := get?_projectRelations made List.not_mem_nil found
  refine ⟨_, node, rfl, ?_, here⟩
  rw [Assoc.get?_putAll (keys_projectRelations made).1, json, Option.some_or]

/-- Where nothing is expanded, nothing can fail. -/
theorem exists_projectRelations (unasked : ∀ relation, projector.selection? relation = none)
    (relations : List (String × Related)) (done : List String) :
    ∃ nodes, projectRelations projector parent done relations = .ok nodes := by
  induction relations generalizing done with
  | nil => exact ⟨[], rfl⟩
  | cons entry rest ih =>
    obtain ⟨name, first⟩ := entry
    rw [projectRelations]
    split
    · exact ih done
    · obtain ⟨others, later⟩ := ih (name :: done)
      exact ⟨_, bind_eq_ok_iff.2 ⟨_, relationNode_collapsed (unasked name),
        bind_eq_ok_iff.2 ⟨others, later, rfl⟩⟩⟩

/-! ## Documents -/

theorem slotEntities_eq_map (slots : List (String × Slot)) :
    slotEntities slots = slots.map fun entry => (entry.1, entry.2.related) := by
  induction slots with
  | nil => rfl
  | cons entry rest ih => rw [slotEntities, ih, List.map_cons]

theorem slotWires_eq_map (slots : List (String × Slot)) :
    slotWires slots = slots.map fun entry => (entry.1, entry.2.wire) := by
  induction slots with
  | nil => rfl
  | cons entry rest ih => rw [slotWires, ih, List.map_cons]

namespace Document

variable {document : Document} {slot : Slot} {shown : Json}

theorem entity_eq (document : Document) : ∃ members, document.entity =
    .record (some document.id.text) (.object members) (slotEntities document.relations) := by
  obtain ⟨kind, id, attributes, relations⟩ := document
  exact ⟨_, by rw [Document.entity, Document.wire]⟩

theorem identifier_entity (document : Document) :
    document.entity.identifier = some document.id.text := by
  obtain ⟨members, same⟩ := document.entity_eq
  rw [same]
  rfl

/-- A rendered document holds the node of every relation that has a slot. -/
theorem node_of_projectEntity (projected : projectEntity projector document.entity = .ok shown)
    (found : Assoc.get? relation document.relations = some slot) :
    ∃ members node, shown = .object members ∧ Assoc.get? relation members = some node.json ∧
      projector.relationNode (some document.id.text) relation slot.related = .ok node := by
  obtain ⟨fields, same⟩ := document.entity_eq
  rw [same] at projected
  apply node_of_projectEntity_record projected
  rw [slotEntities_eq_map, Assoc.get?_map fun _ => Slot.related, found, Option.map_some]

theorem exists_projectEntity (unasked : ∀ relation, projector.selection? relation = none)
    (document : Document) : ∃ shown, projectEntity projector document.entity = .ok shown := by
  obtain ⟨fields, same⟩ := document.entity_eq
  obtain ⟨nodes, made⟩ := exists_projectRelations unasked (slotEntities document.relations) []
  rw [same, projectEntity]
  exact ⟨_, bind_eq_ok_iff.2 ⟨nodes, made, rfl⟩⟩

end Document

end RelationExpansion
