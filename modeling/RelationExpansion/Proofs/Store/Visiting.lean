import RelationExpansion.Proofs.Store.Attaching

/-! # The records that attaching comes to

From a record attaching goes to those that the slots of its requested relations show, and from these
on in the same way (`Visits`).  It comes to a result exactly if all lists of linked records that it
meets can be sorted (`exists_attach_iff_everySort`).
-/

namespace RelationExpansion

namespace Store

variable {store : Store} {set : ExpansionSet} {stack : List String}
  {kind visited relation target : String} {id inner : Uuid} {linked : List (Uuid × Record)}

/-! ## Linked records -/

/-- The records that a relation of a record leads to: one for each link whose target is there, in
the order of the links. -/
structure LeadsTo (store : Store) (kind : String) (id : Uuid) (relation target : String)
    (linked : List (Uuid × Record)) : Prop where
  ids : linked.map Prod.fst =
    (store.links ⟨kind, id, relation⟩).filter fun other => (store.record? target other).isSome
  records : ∀ entry ∈ linked, store.record? target entry.1 = some entry.2

theorem leadsTo_linkedRecords (store : Store) (kind : String) (id : Uuid)
    (relation target : String) :
    store.LeadsTo kind id relation target (store.linkedRecords kind id relation target) where
  ids := by
    rw [linkedRecords]
    induction store.links ⟨kind, id, relation⟩ with
    | nil => rfl
    | cons first rest ih => cases found : store.record? target first <;> simp [found, ih]
  records entry mem := (mem_linkedRecords_iff.1 mem).2

/-- The links say which records there are, and the store which record each of them is. -/
theorem leadsTo_iff :
    store.LeadsTo kind id relation target linked ↔
      linked = store.linkedRecords kind id relation target := by
  constructor
  · rintro ⟨ids, records⟩
    have others := leadsTo_linkedRecords store kind id relation target
    -- The identifiers alone say which list it is, as each record can be looked up.
    have read : ∀ list : List (Uuid × Record),
        (∀ entry ∈ list, store.record? target entry.1 = some entry.2) →
          (list.map Prod.fst).map (fun id => (id, (store.record? target id).getD [])) = list := by
      intro list records
      rw [List.map_map]
      exact (List.map_congr_left fun entry mem => by simp [records entry mem]).trans
        (List.map_id list)
    rw [← read linked records, ids, ← others.ids, read _ others.records]
  · rintro rfl
    exact leadsTo_linkedRecords store kind id relation target

theorem LeadsTo.length_le (leads : store.LeadsTo kind id relation target linked) :
    linked.length ≤ (store.links ⟨kind, id, relation⟩).length := by
  rw [← List.length_map Prod.fst, leads.ids]
  exact List.length_filter_le _ _

theorem LeadsTo.find?_eq {entry : Uuid × Record}
    (leads : store.LeadsTo kind id relation target linked) (mem : entry ∈ linked) :
    store.find? target entry.1 = some (store.document target entry.1 entry.2) := by
  rw [find?, leads.records entry mem, Option.map_some]

/-! ## Visits -/

/-- The records that attaching comes to below a document of this kind and identifier, each with the
relations that lead to it: those on the page of a to-many relation, and the first one of a to-one
relation. -/
inductive Visits (store : Store) (set : ExpansionSet) (kind : String) (id : Uuid) :
    List String → String → Uuid → Prop where
  | root : Visits store set kind id [] kind id
  | many {stack : List String} {visited relation target : String} {inner : Uuid}
      {selection : Selection} {linked arranged : List (Uuid × Record)} {entry : Uuid × Record} :
      Visits store set kind id stack visited inner →
      store.relation? visited relation = some ⟨target, .many⟩ →
      set.child? stack relation = some selection →
      store.LeadsTo visited inner relation target linked →
      selection.arrange linked = .ok arranged →
      entry ∈ (arranged.drop selection.skip).take selection.limit →
      Visits store set kind id (stack ++ [relation]) target entry.1
  | one {stack : List String} {visited relation target : String} {inner : Uuid}
      {selection : Selection} {linked : List (Uuid × Record)} {first : Uuid × Record} :
      Visits store set kind id stack visited inner →
      store.relation? visited relation = some ⟨target, .one⟩ →
      set.child? stack relation = some selection →
      store.LeadsTo visited inner relation target linked →
      linked.head? = some first →
      Visits store set kind id (stack ++ [relation]) target first.1

/-- Whether something holds of all linked records that attaching sorts, at every record that it
comes to, and of the selection that it sorts them for. -/
def EverySort (store : Store) (set : ExpansionSet) (kind : String) (id : Uuid)
    (holds : Selection → List (Uuid × Record) → Prop) : Prop :=
  ∀ stack visited inner relation target selection linked,
    store.Visits set kind id stack visited inner →
    store.relation? visited relation = some ⟨target, .many⟩ →
    set.child? stack relation = some selection →
    store.LeadsTo visited inner relation target linked → holds selection linked

theorem EverySort.imp {holds holds' : Selection → List (Uuid × Record) → Prop}
    (implies : ∀ selection linked, holds selection linked → holds' selection linked)
    (every : store.EverySort set kind id holds) : store.EverySort set kind id holds' :=
  fun _ _ _ _ _ _ _ visits defined asked leads =>
    implies _ _ (every _ _ _ _ _ _ _ visits defined asked leads)

/-- What is attached to a record is attached by the same recursion. -/
theorem exists_attached_iff {record : Record} :
    (∃ document, store.attached set stack kind id record = .ok document) ↔
      store.Attachable set stack kind id := by
  rw [attached, exists_attach_iff, kind_document, id_document]

theorem Attachable.exists_arrange {selection : Selection}
    (attachable : store.Attachable set stack visited inner)
    (defined : store.relation? visited relation = some ⟨target, .many⟩)
    (asked : set.child? stack relation = some selection)
    (leads : store.LeadsTo visited inner relation target linked) :
    ∃ arranged, selection.arrange linked = .ok arranged ∧
      ∀ entry ∈ (arranged.drop selection.skip).take selection.limit,
        store.Attachable set (stack ++ [relation]) target entry.1 := by
  obtain rfl := leadsTo_iff.1 leads
  have made := attachable_iff.1 attachable _ _ _ (Assoc.mem_of_get?_eq_some defined) asked
  obtain ⟨page, total, selects, children⟩ := exists_populatedSlot_many_iff.1 made
  obtain ⟨arranged, arranges, rfl, -⟩ := Selection.select_eq_ok_iff.1 selects
  exact ⟨arranged, arranges, fun entry mem => exists_attached_iff.1 (children entry mem)⟩

theorem Visits.attachable (visits : store.Visits set kind id stack visited inner)
    (attachable : store.Attachable set [] kind id) : store.Attachable set stack visited inner := by
  induction visits with
  | root => exact attachable
  | many _ defined asked leads arranges mem ih =>
    obtain ⟨arranged, arranges', children⟩ := ih.exists_arrange defined asked leads
    cases arranges.symm.trans arranges'
    exact children _ mem
  | one _ defined asked leads first ih =>
    obtain rfl := leadsTo_iff.1 leads
    have made := attachable_iff.1 ih _ _ _ (Assoc.mem_of_get?_eq_some defined) asked
    exact exists_attached_iff.1 (exists_populatedSlot_one_iff.1 made _ first)

/-- Each slot needs one sort, and the slots of the records that it shows, which lie one relation
deeper. -/
theorem Visits.attachable_of_everySort {stack : List String} {visited : String} {inner : Uuid}
    (distinct : store.HasDistinctRelations)
    (every : store.EverySort set kind id Selection.Arrangeable)
    (visits : store.Visits set kind id stack visited inner) :
    store.Attachable set stack visited inner := by
  refine attachable_iff.2 fun relation definition selection mem asked => ?_
  have defined : store.relation? visited relation = some definition :=
    Assoc.get?_eq_some_of_mem (distinct visited) mem
  have short := ExpansionSet.length_lt_maxDepth asked
  obtain ⟨target, cardinality⟩ := definition
  have leads := leadsTo_linkedRecords store visited inner relation target
  cases cardinality with
  | many =>
    obtain ⟨arranged, arranges⟩ := every _ _ _ _ _ _ _ visits defined asked leads
    exact exists_populatedSlot_many_iff.2 ⟨_, _,
      Selection.select_eq_ok_iff.2 ⟨arranged, arranges, rfl, rfl⟩, fun entry shown =>
        exists_attached_iff.2 <|
          (visits.many defined asked leads arranges shown).attachable_of_everySort distinct every⟩
  | one =>
    exact exists_populatedSlot_one_iff.2 fun entry first =>
      exists_attached_iff.2 <|
        (visits.one defined asked leads first).attachable_of_everySort distinct every
termination_by set.maxDepth - stack.length
decreasing_by all_goals simp only [List.length_append, List.length_singleton]; omega

theorem exists_attach_iff_everySort (distinct : store.HasDistinctRelations) {document : Document} :
    (∃ after, store.attach set [] document = .ok after) ↔
      store.EverySort set document.kind document.id Selection.Arrangeable := by
  rw [exists_attach_iff]
  constructor
  · intro attachable stack visited inner relation target selection linked visits defined asked leads
    obtain ⟨arranged, arranges, -⟩ :=
      (visits.attachable attachable).exists_arrange defined asked leads
    exact ⟨arranged, arranges⟩
  · exact fun every => Visits.root.attachable_of_everySort distinct every

/-! ## Few links -/

/-- After a short run there is nothing that could not be sorted. -/
theorem everySort_run {commands : List Command}
    (short : commands.length ≤ Sorting.insertionLength) :
    (empty.run commands).EverySort set kind id fun selection linked =>
      selection.SortsSafely (selection.matching linked) := by
  intro stack visited inner relation target selection linked _ _ _ leads
  have few : linked.length ≤ commands.length :=
    Nat.le_trans leads.length_le (length_links_run commands _)
  exact .inr (Nat.le_trans (List.length_filter_le _ linked) (Nat.le_trans few short))

theorem exists_attach_of_short (commands : List Command)
    (short : commands.length ≤ Sorting.insertionLength) (set : ExpansionSet)
    (document : Document) : ∃ after, (empty.run commands).attach set [] document = .ok after :=
  (exists_attach_iff_everySort (hasDistinctRelations_run commands)).2 <|
    (everySort_run short).imp fun _ _ => Selection.exists_arrange

end Store

end RelationExpansion
