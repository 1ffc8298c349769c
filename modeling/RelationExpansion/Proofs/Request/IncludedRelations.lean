import RelationExpansion.Proofs.Projection.Overflows
import RelationExpansion.Proofs.Projection.RelationNodes
import RelationExpansion.Proofs.Request.FailedRequests
import RelationExpansion.Proofs.Store.Links
import RelationExpansion.Proofs.Store.Populating

/-! # One relation, included and not

A record is fetched once without its relations and once with them.  A relation that is not included
holds references, and one that is included holds the records that are still there.  While the links
fit the definition these are equally many, and the first reference identifies the first record, so
both responses give the same URL and the same number (`get_count_eq_totalEntries`).
-/

namespace RelationExpansion

namespace Store

variable {store : Store} {kind relation : String} {id : Uuid} {definition : RelationDef}
  {selection : Selection} {slot : Slot}

/-! ## References and records -/

theorem slot_document (distinct : store.HasDistinctRelations) (record : Record) :
    Assoc.get? relation (store.document kind id record).relations =
      (store.relation? kind relation).map (store.referenceSlot kind id relation) := by
  have fresh : (Assoc.keys (store.referenceSlots kind id)).Nodup := by
    rw [referenceSlots, Assoc.keys_map (store.referenceSlot kind id)]
    exact distinct kind
  rw [document_eq, Assoc.get?_putAll fresh, referenceSlots,
    Assoc.get?_map (store.referenceSlot kind id)]
  exact Option.or_none

/-- No link is skipped when all of them fit. -/
theorem linkedRecords_map_fst (fits : store.LinksFit ⟨kind, id, relation⟩ definition) :
    (store.linkedRecords kind id relation definition.target).map Prod.fst =
      store.links ⟨kind, id, relation⟩ := by
  rw [linkedRecords, List.map_filterMap]
  refine (List.filterMap_congr fun target mem => ?_).trans List.filterMap_some
  obtain ⟨record, here⟩ := Option.isSome_iff_exists.1 (fits.targets target mem)
  rw [here]
  rfl

/-- A populated slot and the slot of references tell the same number, and identify the same record
where there is one. -/
theorem populatedSlot_agrees (fits : store.LinksFit ⟨kind, id, relation⟩ definition)
    (unfiltered : selection.filter = none) {child : Uuid → Record → Except Disorder Document}
    (named : ∀ id record document, child id record = .ok document → document.id = id)
    (made : populatedSlot definition selection
      (store.linkedRecords kind id relation definition.target) child = .ok slot) :
    let collapsed := store.referenceSlot kind id relation definition
    slot.related.totalCount = collapsed.related.totalCount ∧
      slot.related.itemIdentifier = collapsed.related.itemIdentifier := by
  obtain ⟨target, cardinality⟩ := definition
  have kept := linkedRecords_map_fst fits
  intro collapsed
  simp only [collapsed, referenceSlot, ← kept]
  cases cardinality with
  | many =>
    obtain ⟨page, total, documents, selects, -, rfl⟩ := populatedSlot_many_eq_ok_iff.1 made
    obtain ⟨arranged, arranges, -, rfl⟩ := Selection.select_eq_ok_iff.1 selects
    have all : arranged.length = (store.linkedRecords kind id relation target).length := by
      rw [(Selection.perm_of_arrange arranges).length_eq]
      simp [Selection.matching, Selection.admits, unfiltered]
    refine ⟨?_, rfl⟩
    simpa [Slot.related, Related.totalCount, itemEntities_eq_map] using all
  | one =>
    rcases populatedSlot_one_eq_ok_iff.1 made with ⟨none, rfl⟩ | ⟨first, document, here, child, rfl⟩
    · rw [none]
      exact ⟨rfl, rfl⟩
    · obtain ⟨rest, linked⟩ := List.head?_eq_some_iff.1 here
      rw [linked]
      refine ⟨rfl, ?_⟩
      show document.entity.identifier = some first.1.text
      rw [Document.identifier_entity, named _ _ _ child]

end Store

namespace Api

variable {registry : Registry} {limits : Limits} {budget : Option Nat} {store : Store}
  {resource relation : String} {id : Uuid} {record : Record} {definition : RelationDef}
  {query : Query} {view : View} {selection : Selection} {slot : Slot} {envelope : Envelope}

/-! ## Fetching over a store -/

theorem get_known (known : registry.view? resource = some view)
    (there : store.record? resource id = some record) :
    (overStore registry limits budget).get store resource id query =
      (overStore registry limits budget).single store resource (store.document resource id record)
        (ExpansionSet.ofDirectives view limits query.directives) view := by
  have found : store.find? resource id = some (store.document resource id record) := by
    rw [Store.find?, there, Option.map_some]
  simp only [get, expansionSet, Api.view, overStore, Store.service, known, found]
  rfl

/-- What is fetched is a stored record. -/
theorem exists_record_of_get
    (fetched : (overStore registry limits budget).get store resource id query = .ok envelope) :
    ∃ record, store.record? resource id = some record := by
  cases there : store.record? resource id with
  | some record => exact ⟨record, rfl⟩
  | none =>
    obtain ⟨view, -, fetched⟩ := bind_eq_ok_iff.1 fetched
    obtain ⟨set, -, fetched⟩ := bind_eq_ok_iff.1 fetched
    have missing : store.find? resource id = none := by rw [Store.find?, there, Option.map_none]
    simp only [overStore, Store.service, missing] at fetched
    cases fetched

theorem envelope_single_eq_ok_iff {entity : Entity} {url : String} {texts : List String} :
    Api.envelope (.single (some entity)) url (ExpansionSet.ofDirectives view limits texts) view =
        .ok envelope ↔
      ∃ shown, projectEntity (Envelope.projectorOf view limits texts) entity = .ok shown ∧
        envelope = ⟨url, none, shown⟩ := by
  rw [Api.envelope, mapError_eq_ok_iff, Envelope.build_single]
  cases projectEntity (Envelope.projectorOf view limits texts) entity <;>
    simp [Except.map, eq_comm]

/-- A record is fetched when the store can follow what is asked for, and the record can be attached
and then has a projection. -/
theorem get_eq_ok_iff (known : registry.view? resource = some view)
    (there : store.record? resource id = some record) :
    let set := ExpansionSet.ofDirectives view limits query.directives
    (overStore registry limits budget).get store resource id query = .ok envelope ↔
      (set.isEmpty = true ∨ store.checkPaths resource set = .ok ()) ∧ ∃ grown shown,
        store.attached set [] resource id record = .ok grown ∧
        projectEntity (Envelope.projectorOf view limits query.directives) grown.entity = .ok shown ∧
        envelope = ⟨itemUrl ((overStore registry limits budget).collectionUrl resource) id.text,
          none, shown⟩ := by
  intro set
  rw [get_known known there, single, bind_eq_ok_iff]
  simp only [populate_overStore, mapError_eq_ok_iff, Store.populate_eq_ok_iff, List.mem_singleton,
    forall_eq, Store.kind_document, Store.id_document, List.forall₂_cons_left_iff,
    List.forall₂_nil_left_iff]
  constructor
  · rintro ⟨_, ⟨allowed, grown, _, attaches, rfl, rfl⟩, enveloped⟩
    obtain ⟨shown, projected, same⟩ := envelope_single_eq_ok_iff.1 enveloped
    exact ⟨allowed, grown, shown, attaches, projected, same⟩
  · rintro ⟨allowed, grown, shown, attaches, projected, same⟩
    exact ⟨_, ⟨allowed, grown, _, attaches, rfl, rfl⟩,
      envelope_single_eq_ok_iff.2 ⟨shown, projected, same⟩⟩

theorem exists_get (view : View) (record : Record) (known : registry.view? resource = some view)
    (there : store.record? resource id = some record)
    (followed : ∀ path ∈ (ExpansionSet.ofDirectives view limits query.directives).keys,
      (store.follow? resource path.segments).isSome = true)
    (rendered : ((store.attached (ExpansionSet.ofDirectives view limits query.directives) []
      resource id record).toOption.bind fun grown =>
        (projectEntity (Envelope.projectorOf view limits query.directives)
          grown.entity).toOption).isSome = true) :
    ∃ envelope, (overStore registry limits budget).get store resource id query = .ok envelope := by
  obtain ⟨data, rendered⟩ := Option.isSome_iff_exists.1 rendered
  obtain ⟨grown, attaches, projected⟩ := Option.bind_eq_some_iff.1 rendered
  exact ⟨_, (get_eq_ok_iff known there).2 ⟨.inr (Store.checkPaths_eq_ok_iff.2 followed), grown, data,
    toOption_eq_some_iff.1 attaches, toOption_eq_some_iff.1 projected, rfl⟩⟩

/-- A fetched record is an attached one, and holds the node of every relation that has a slot. -/
theorem nodes_of_get (known : registry.view? resource = some view)
    (there : store.record? resource id = some record)
    (fetched : (overStore registry limits budget).get store resource id query = .ok envelope) :
    ∃ grown, store.attached (ExpansionSet.ofDirectives view limits query.directives) [] resource id
        record = .ok grown ∧
      ∀ relation slot, Assoc.get? relation grown.relations = some slot →
        ∃ members node, envelope.data = .object members ∧
          Assoc.get? relation members = some node.json ∧
          (Envelope.projectorOf view limits query.directives).relationNode (some id.text) relation
            slot.related = .ok node := by
  obtain ⟨-, grown, shown, attaches, projected, rfl⟩ := (get_eq_ok_iff known there).1 fetched
  refine ⟨grown, attaches, fun relation slot held => ?_⟩
  have rendered := Document.node_of_projectEntity projected held
  rwa [Store.id_attached attaches] at rendered

theorem isEmpty_bare (without : query.directives = []) :
    (ExpansionSet.ofDirectives view limits query.directives).isEmpty = true := by
  rw [without]
  rfl

theorem attached_bare (without : query.directives = []) :
    store.attached (ExpansionSet.ofDirectives view limits query.directives) [] resource id record =
      .ok (store.document resource id record) :=
  Store.attach_of_isEmpty (isEmpty_bare without) _

/-- Without directives a record is always fetched. -/
theorem exists_get_bare (limits : Limits) (budget : Option Nat)
    (known : registry.view? resource = some view)
    (there : store.record? resource id = some record) (without : query.directives = []) :
    ∃ envelope, (overStore registry limits budget).get store resource id query = .ok envelope := by
  have unasked : ∀ relation,
      (Envelope.projectorOf view limits query.directives).selection? relation = none := by
    rw [without]
    exact fun _ => rfl
  obtain ⟨data, projected⟩ :=
    Document.exists_projectEntity unasked (store.document resource id record)
  exact ⟨_, (get_eq_ok_iff known there).2
    ⟨.inl (isEmpty_bare without), _, data, attached_bare without, projected, rfl⟩⟩

/-- Without directives a record counts its references. -/
theorem get_collapsed (limits : Limits) (budget : Option Nat)
    (distinct : store.HasDistinctRelations)
    (known : registry.view? resource = some view)
    (there : store.record? resource id = some record)
    (defined : store.relation? resource relation = some definition)
    (without : query.directives = []) :
    let related := (store.referenceSlot resource id relation definition).related
    ∃ envelope members,
      (overStore registry limits budget).get store resource id query = .ok envelope ∧
      envelope.data = .object members ∧
      Assoc.get? relation members = some (Node.collapsed ((Envelope.projectorOf view limits
        query.directives).relationUrl relation (some id.text) related.itemIdentifier)
          related.totalCount).json := by
  intro related
  have unasked : (Envelope.projectorOf view limits query.directives).selection? relation = none := by
    rw [without]
    rfl
  have slot : Assoc.get? relation (store.document resource id record).relations =
      some (store.referenceSlot resource id relation definition) := by
    rw [Store.slot_document distinct, defined, Option.map_some]
  obtain ⟨envelope, fetched⟩ := exists_get_bare limits budget known there without
  obtain ⟨grown, attaches, nodes⟩ := nodes_of_get known there fetched
  cases (attached_bare without).symm.trans attaches
  obtain ⟨members, node, shown, held, made⟩ := nodes relation _ slot
  rw [relationNode_collapsed unasked] at made
  cases made
  exact ⟨_, members, fetched, shown, held⟩

/-- An included relation shows the page of the records that are attached. -/
theorem get_expanded (distinct : store.HasDistinctRelations)
    (known : registry.view? resource = some view)
    (there : store.record? resource id = some record)
    (defined : store.relation? resource relation = some definition)
    (included : (ExpansionSet.ofDirectives view limits query.directives).child? [] relation =
      some selection)
    (fetched : (overStore registry limits budget).get store resource id query = .ok envelope) :
    ∃ slot members paginator data,
      Store.populatedSlot definition selection
        (store.linkedRecords resource id relation definition.target)
        (store.attached (ExpansionSet.ofDirectives view limits query.directives) [relation]
          definition.target) = .ok slot ∧
      envelope.data = .object members ∧ paginator.totalEntries = slot.related.totalCount ∧
      Assoc.get? relation members = some (Node.expanded ((Envelope.projectorOf view limits
        query.directives).relationUrl relation (some id.text) slot.related.itemIdentifier)
          paginator data).json := by
  obtain ⟨grown, attaches, nodes⟩ := nodes_of_get known there fetched
  obtain ⟨slot, filled, held⟩ := Store.slot_attached attaches distinct defined included
  obtain ⟨members, node, shown, held, made⟩ := nodes relation slot held
  have asked : (Envelope.projectorOf view limits query.directives).selection? relation =
      some selection := included
  obtain ⟨paginator, data, rfl, paginated, -⟩ := relationNode_expanded asked made
  exact ⟨slot, members, paginator, data, filled, shown, totalEntries_ofSelection paginated, held⟩

/-- Over the definitions that a run leaves alone, a relation has the same URL and the same number of
records whether it is included or not. -/
theorem get_count_eq_totalEntries (registry : Registry) (limits : Limits) (budget : Option Nat)
    (commands : List Store.Command)
    (kept : Store.empty.Throughout Store.Command.KeepsDefinitions commands) :
    let store := Store.empty.run commands
    let api := overStore registry limits budget
    ∀ resource relation id view definition, registry.view? resource = some view →
      (store.record? resource id).isSome = true →
      store.relation? resource relation = some definition →
      ∀ bare query selection envelope, bare.directives = [] →
        (ExpansionSet.ofDirectives view limits query.directives).child? [] relation =
          some selection →
        selection.filter = none → api.get store resource id query = .ok envelope →
        ∃ plain members shown url paginator data,
          api.get store resource id bare = .ok plain ∧
          plain.data = .object members ∧ envelope.data = .object shown ∧
          Assoc.get? relation members = some (Node.collapsed url paginator.totalEntries).json ∧
          Assoc.get? relation shown = some (Node.expanded url paginator data).json := by
  intro store api resource relation id view definition known there defined bare query selection
    envelope without included unfiltered fetched
  obtain ⟨record, there⟩ := Option.isSome_iff_exists.1 there
  have distinct : store.HasDistinctRelations := Store.hasDistinctRelations_run commands
  have fits : store.LinksFit ⟨resource, id, relation⟩ definition :=
    Store.linksFit_run (Store.keepsLinked_of_keepsDefinitions _ kept) defined
  obtain ⟨plain, members, plainly, shownPlain, collapsed⟩ :=
    get_collapsed limits budget distinct known there defined without
  obtain ⟨slot, shown, paginator, data, filled, shownFull, total, expanded⟩ :=
    get_expanded distinct known there defined included fetched
  obtain ⟨sameCount, sameItem⟩ := Store.populatedSlot_agrees fits unfiltered
    (fun _ _ _ => Store.id_attached) filled
  refine ⟨plain, members, shown, _, paginator, data, plainly, shownPlain, shownFull, ?_, expanded⟩
  rw [collapsed, total, sameCount, sameItem]
  rfl

/-- The second of two pages of tags. -/
theorem get_count_eq_totalEntries_blog :
    let api := overStore (Registry.collect articlesOnly.declarations) {} none
    let store := Store.empty.run Store.blogCommands
    let id := Uuid.ofRandom 3
    let query : Query := { expand := some "tags:per_page(1):page(2):sort(name|desc)" }
    Store.empty.Throughout Store.Command.KeepsDefinitions Store.blogCommands ∧
      ∃ envelope, api.get store "articles" id query = .ok envelope ∧
        ∃ plain members shown url paginator data,
          api.get store "articles" id {} = .ok plain ∧
          plain.data = .object members ∧ envelope.data = .object shown ∧
          Assoc.get? "tags" members = some (Node.collapsed url paginator.totalEntries).json ∧
          Assoc.get? "tags" shown = some (Node.expanded url paginator data).json := by
  intro api store id query
  let view : View := ⟨Registry.collect articlesOnly.declarations, articles.relations, 1⟩
  let set := ExpansionSet.ofDirectives view {} query.directives
  have kept : Store.empty.Throughout Store.Command.KeepsDefinitions Store.blogCommands := by
    simp [Store.Throughout, Store.Command.KeepsDefinitions, Store.blogCommands, Store.perform,
      Store.define, Store.empty, Store.relation?, update, Assoc.get?, Assoc.put]
  have there : (store.record? "articles" id).isSome = true := by decide +kernel
  have asked : (set.child? [] "tags").map (·.filter.isNone) = some true := by decide +kernel
  have allowed : ∀ path ∈ set.keys, (store.follow? "articles" path.segments).isSome = true := by
    decide +kernel
  have rendered : (store.record? "articles" id).all (fun record =>
      ((store.attached set [] "articles" id record).toOption.bind fun grown =>
        (projectEntity (Envelope.projectorOf view {} query.directives)
          grown.entity).toOption).isSome) = true := by
    decide +kernel
  obtain ⟨record, found⟩ := Option.isSome_iff_exists.1 there
  obtain ⟨selection, included, unfiltered⟩ := Option.map_eq_some_iff.1 asked
  rw [found] at rendered
  obtain ⟨envelope, fetched⟩ := exists_get view record view?_articlesOnly found allowed rendered
  exact ⟨kept, envelope, fetched, get_count_eq_totalEntries _ {} none Store.blogCommands kept "articles"
    "tags" id view ⟨"tags", .many⟩ view?_articlesOnly there rfl {} query selection _ rfl included
    (Option.isNone_iff_eq_none.1 unfiltered) fetched⟩

end Api

end RelationExpansion
