import RelationExpansion.Proofs.Request.ServedStates
import RelationExpansion.Proofs.Request.SiblingRelations

/-! # Writes in the middle of a request

A request loads its roots from one state and attaches their relations from another: what is written
in between is seen by the second step only.  Nothing that is written takes a record or a relation
away, so the roots and their fields are those of the first state, and the slots of the relations that
are asked for are replaced as a whole by those of the second (`interrupted_exact`).
-/

namespace RelationExpansion

/-- Whether two documents stand for one record, with whatever slots. -/
def Document.SameRecord (left right : Document) : Prop :=
  left.kind = right.kind ∧ left.id = right.id ∧ left.attributes = right.attributes

/-! ## What writes keep -/

namespace Store

variable {store before after : Store} {kind relation : String} {id : Uuid} {set : ExpansionSet}

/-- What relates a state to one that some writes lead to: nothing is taken away, and in neither state
two records of a kind share an identifier or two relations a name. -/
structure Precedes (before after : Store) : Prop where
  relations : ∀ kind relation, (before.relation? kind relation).isSome = true →
    (after.relation? kind relation).isSome = true
  records : ∀ kind id, (before.record? kind id).isSome = true →
    (after.record? kind id).isSome = true
  ids : before.HasDistinctIds ∧ after.HasDistinctIds
  names : before.HasDistinctRelations ∧ after.HasDistinctRelations

theorem precedes_run (ids : store.HasDistinctIds) (names : store.HasDistinctRelations)
    (commands : List Command) : store.Precedes (store.run commands) := by
  induction commands using List.reverseRecOn with
  | nil => exact ⟨fun _ _ => id, fun _ _ => id, ⟨ids, ids⟩, names, names⟩
  | append_singleton commands command ih =>
    have reaches := reaches_run store (commands ++ [command])
    refine ⟨?_, ?_, ⟨ids, reaches.hasDistinctIds ids⟩, names, reaches.hasDistinctRelations names⟩
    · rw [run_concat]
      exact fun kind relation defined =>
        relation?_isSome_perform (ih.relations kind relation defined)
    · rw [run_concat]
      exact fun kind id there => record?_perform (ih.records kind id there)

/-- Whether attaching to a document of a kind replaces the slot of a relation. -/
def Attaches (store : Store) (kind : String) (set : ExpansionSet) (relation : String) : Prop :=
  (store.relation? kind relation).isSome = true ∧ (set.child? [] relation).isSome = true

theorem sameRecord_populate {roots grown : List Document}
    (populated : store.populate roots set = .ok grown) :
    List.Forall₂ Document.SameRecord roots grown := by
  refine (populate_eq_ok_iff.1 populated).2.imp fun root document attaches => ?_
  exact ⟨(kind_attach attaches).symm, (id_attach attaches).symm, (attributes_attach attaches).symm⟩

theorem child?_eq_none_of_not_attaches (left : ¬ store.Attaches kind set relation)
    (defined : (store.relation? kind relation).isSome = true) : set.child? [] relation = none := by
  simpa using fun asked => left ⟨defined, asked⟩

theorem slot_attach_of_not_attaches {document grown : Document}
    (attaches : store.attach set [] document = .ok grown)
    (left : ¬ store.Attaches document.kind set relation) :
    Assoc.get? relation grown.relations = Assoc.get? relation document.relations :=
  slot_attach_unrequested attaches fun _ defined =>
    child?_eq_none_of_not_attaches left (Option.isSome_of_eq_some defined)

section Mixed

variable {record record' : Record} {mixed whole : Document}
  (mixes : after.attach set [] (before.document kind id record) = .ok mixed)
  (attaches : after.attached set [] kind id record' = .ok whole)

/-- Whether a record can be attached does not depend on its fields. -/
theorem exists_attached_of_attach
    (mixes : after.attach set [] (before.document kind id record) = .ok mixed)
    (record' : Record) : ∃ whole, after.attached set [] kind id record' = .ok whole := by
  have attachable := exists_attach_iff.1 ⟨mixed, mixes⟩
  rw [kind_document, id_document] at attachable
  exact exists_attached_iff.2 attachable

include mixes attaches

/-- The slot of a relation that is asked for does not depend on what the document held before. -/
theorem slot_attach_of_attaches (distinct : after.HasDistinctRelations)
    (asks : after.Attaches kind set relation) :
    ∃ slot, Assoc.get? relation mixed.relations = some slot ∧
      Assoc.get? relation whole.relations = some slot := by
  obtain ⟨definition, defined⟩ := Option.isSome_iff_exists.1 asks.1
  obtain ⟨selection, asked⟩ := Option.isSome_iff_exists.1 asks.2
  have requested := slot_attach_requested mixes distinct (by rwa [kind_document]) asked
  rw [kind_document, id_document] at requested
  obtain ⟨slot, made, held⟩ := requested
  obtain ⟨slot', made', held'⟩ := slot_attached attaches distinct defined asked
  cases made.symm.trans made'
  exact ⟨slot, held, held'⟩

/-- A slot that the set asks for is the same in a document of either state. -/
theorem slot_attach_eq (precedes : before.Precedes after)
    (asked : (set.child? [] relation).isSome = true) :
    Assoc.get? relation mixed.relations = Assoc.get? relation whole.relations := by
  by_cases defined : (after.relation? kind relation).isSome = true
  · obtain ⟨slot, held, held'⟩ :=
      slot_attach_of_attaches mixes attaches precedes.names.2 ⟨defined, asked⟩
    rw [held, held']
  · -- What is not defined at the second state was not defined before, so there is no slot at all.
    have undefined : before.relation? kind relation = none := by
      simpa using mt (precedes.relations kind relation) defined
    have left : ¬ after.Attaches (before.document kind id record).kind set relation := by
      rw [kind_document]
      exact fun asks => defined asks.1
    rw [slot_attach_of_not_attaches mixes left, slot_document precedes.names.1, undefined,
      slot_attached_eq_none attaches (by simpa using defined), Option.map_none]

end Mixed

end Store

/-! ## Rendering what was attached in between -/

/-- Whether two objects have the same member of a name, or neither has one. -/
def Json.SameField (name : String) (left right : Json) : Prop :=
  ∃ members others, left = .object members ∧ right = .object others ∧
    Assoc.get? name members = Assoc.get? name others

/-- A document fails with every other one that has the same slots where relations are expanded. -/
theorem Document.fails_of_slots_eq {projector : Projector} {document other : Document}
    (same : ∀ relation, (projector.selection? relation).isSome = true →
      Assoc.get? relation document.relations = Assoc.get? relation other.relations)
    (failed : projectEntity projector document.entity = .error .countTooLarge) :
    projectEntity projector other.entity = .error .countTooLarge := by
  obtain ⟨members, entity⟩ := document.entity_eq
  obtain ⟨members', entity'⟩ := other.entity_eq
  rw [entity, projectEntity_record_eq_error_iff] at failed
  obtain ⟨relation, related, selection, found, asked, reason⟩ := failed
  rw [entity', projectEntity_record_eq_error_iff]
  refine ⟨relation, related, selection, ?_, asked, reason⟩
  rw [slotEntities_eq_map, Assoc.get?_map fun _ => Slot.related] at found ⊢
  rwa [← same relation (Option.isSome_of_eq_some asked)]

namespace Api

variable {registry : Registry} {limits : Limits} {budget : Option Nat} {before after : Store}
  {resource : String} {id : Uuid} {query : Query} {view : View}

/-- Where the fields of a root come from that was loaded before some writes and populated after
them.  A field that the directives replace is the one that a request with these directives shows
after the writes, and any other is the one that a request shows before them if it does not replace
the field. -/
structure FieldsFromBoth (api : Api Store) (before after : Store) (resource : String) (view : View)
    (texts : List String) (id : Uuid) (shown : Json) : Prop where
  requested : ∀ name,
    after.Attaches resource (ExpansionSet.ofDirectives view api.limits texts) name →
    ∀ whole, api.Renders after resource texts id whole → Json.SameField name shown whole
  servedAfter : ∃ whole, api.Renders after resource texts id whole
  others : ∀ name,
    ¬ after.Attaches resource (ExpansionSet.ofDirectives view api.limits texts) name →
    ∀ texts', ¬ before.Attaches resource (ExpansionSet.ofDirectives view api.limits texts') name →
    ∀ whole, api.Renders before resource texts' id whole → Json.SameField name shown whole
  servedBefore : ∃ whole, api.Renders before resource [] id whole

/-! ### A root of both states -/

section Root

variable {record record' : Record} {mixed whole : Document} {shown : Json}

/-- A root overflows between two states where it overflows at the second one. -/
theorem fails_attach_iff (precedes : before.Precedes after) {texts : List String}
    (mixes : after.attach (ExpansionSet.ofDirectives view limits texts) []
      (before.document resource id record) = .ok mixed)
    (attaches : after.attached (ExpansionSet.ofDirectives view limits texts) [] resource id
      record' = .ok whole) :
    projectEntity (Envelope.projectorOf view limits texts) mixed.entity = .error .countTooLarge ↔
      projectEntity (Envelope.projectorOf view limits texts) whole.entity =
        .error .countTooLarge := by
  have same : ∀ relation,
      ((Envelope.projectorOf view limits texts).selection? relation).isSome = true →
      Assoc.get? relation mixed.relations = Assoc.get? relation whole.relations :=
    fun relation asked => Store.slot_attach_eq mixes attaches precedes asked
  exact ⟨Document.fails_of_slots_eq same,
    Document.fails_of_slots_eq fun relation asked => (same relation asked).symm⟩

section Populated

variable (precedes : before.Precedes after) (known : registry.view? resource = some view)
  (there : before.record? resource id = some record)
  (allowed : after.checkPaths resource (ExpansionSet.ofDirectives view limits query.directives) =
    .ok ())
  (mixes : after.attach (ExpansionSet.ofDirectives view limits query.directives) []
    (before.document resource id record) = .ok mixed)

include precedes known there allowed mixes

theorem fieldsFromBoth
    (projected : projectEntity (Envelope.projectorOf view limits query.directives) mixed.entity =
      .ok shown) :
    (overStore registry limits budget).FieldsFromBoth before after resource view query.directives
      id shown where
  requested name asks whole renders := by
    -- The record may have been replaced in between; the node shows its slot and nothing else of it.
    obtain ⟨record', grown, -, attaches, wholly⟩ := renders.exists_record known precedes.ids.2
    obtain ⟨slot, held, held'⟩ :=
      Store.slot_attach_of_attaches mixes attaches precedes.names.2 asks
    obtain ⟨members, node, same, field, made⟩ := Document.node_of_projectEntity projected held
    obtain ⟨others, node', same', field', made'⟩ := Document.node_of_projectEntity wholly held'
    rw [Store.id_attach mixes, Store.id_document] at made
    rw [Store.id_attached attaches, made] at made'
    cases made'
    exact ⟨members, others, same, same', field.trans field'.symm⟩
  servedAfter := by
    have there' : (after.record? resource id).isSome = true :=
      precedes.records resource id (Option.isSome_of_eq_some there)
    obtain ⟨record', there'⟩ := Option.isSome_iff_exists.1 there'
    obtain ⟨grown, attaches⟩ := Store.exists_attached_of_attach mixes record'
    cases wholly : projectEntity (Envelope.projectorOf view limits query.directives)
        grown.entity with
    | ok whole =>
      exact ⟨_, .fetched rfl
        ((get_eq_ok_iff known there').2 ⟨.inr allowed, grown, whole, attaches, wholly, rfl⟩)⟩
    | error error =>
      rw [(fails_attach_iff precedes mixes attaches).2 wholly] at projected
      cases projected
  others name left texts' left' whole renders := by
    obtain ⟨record', grown, there', attaches, wholly⟩ := renders.exists_record known precedes.ids.1
    cases there.symm.trans there'
    refine Document.field_congr projected wholly ?_ ?_ ?_ ?_
    · exact (Store.id_attach mixes).trans (Store.id_attach attaches).symm
    · exact (Store.attributes_attach mixes).trans (Store.attributes_attach attaches).symm
    · rw [Store.slot_attach_of_not_attaches mixes (by rwa [Store.kind_document]),
        Store.slot_attach_of_not_attaches attaches (by rwa [Store.kind_document])]
    · -- A slot that is left alone is that of a relation which neither request asks for.
      intro slot held parent
      rw [Store.slot_attach_of_not_attaches mixes (by rwa [Store.kind_document]),
        Store.slot_document precedes.names.1] at held
      obtain ⟨definition, defined, -⟩ := Option.map_eq_some_iff.1 held
      have defined : (before.relation? resource name).isSome = true :=
        Option.isSome_of_eq_some defined
      have unasked : (Envelope.projectorOf view limits query.directives).selection? name = none :=
        Store.child?_eq_none_of_not_attaches left (precedes.relations resource name defined)
      have unasked' : (Envelope.projectorOf view limits texts').selection? name = none :=
        Store.child?_eq_none_of_not_attaches left' defined
      rw [relationNode_collapsed unasked, relationNode_collapsed unasked']
      rfl
  servedBefore := by
    have bare : ({} : Query).directives = [] := rfl
    obtain ⟨envelope, fetched⟩ := exists_get_bare limits budget known there bare
    exact ⟨_, .fetched rfl fetched⟩

theorem get_overflows {error : Overflow}
    (failed : projectEntity (Envelope.projectorOf view limits query.directives) mixed.entity =
      .error error) :
    (overStore registry limits budget).get after resource id query =
      .error (.overflow error) := by
  have there' : (after.record? resource id).isSome = true :=
    precedes.records resource id (Option.isSome_of_eq_some there)
  obtain ⟨record', there'⟩ := Option.isSome_iff_exists.1 there'
  obtain ⟨grown, attaches⟩ := Store.exists_attached_of_attach mixes record'
  have wholly := (fails_attach_iff precedes mixes attaches).1 failed
  rw [get_overStore, get_interrupted known there' allowed attaches, wholly]
  rfl

/-- A fetch that is populated shows the record, or overflows as it does at the second state. -/
theorem get_fromBoth :
    let api := interrupted registry limits budget after
    let whole := overStore registry limits budget
    (∃ shown, api.get before resource id query =
        .ok ⟨itemUrl (whole.collectionUrl resource) id.text, none, shown⟩ ∧
      whole.FieldsFromBoth before after resource view query.directives id shown) ∨
    ∃ error, api.get before resource id query = .error (.overflow error) ∧
      whole.get after resource id query = .error (.overflow error) := by
  intro api whole
  rw [get_interrupted known there allowed mixes]
  cases projected : projectEntity (Envelope.projectorOf view limits query.directives)
      mixed.entity with
  | ok shown => exact .inl ⟨shown, rfl, fieldsFromBoth precedes known there allowed mixes projected⟩
  | error error =>
    exact .inr ⟨error, rfl, get_overflows precedes known there allowed mixes projected⟩

end Populated

end Root

/-- A listing that is populated shows all the roots, or overflows as one of them does at the second
state. -/
theorem list_fromBoth (precedes : before.Precedes after) {page : List Document × Nat}
    {grown : List Document} (known : registry.view? resource = some view)
    (lists : before.list resource (query.rootSelection limits) = .ok page)
    (populated : after.populate page.1 (ExpansionSet.ofDirectives view limits query.directives) =
      .ok grown) :
    let api := interrupted registry limits budget after
    let whole := overStore registry limits budget
    (∃ paginator items,
        Paginator.ofSelection page.2 (query.rootSelection limits) = .ok paginator ∧
        api.list before resource query =
          .ok ⟨whole.collectionUrl resource, some paginator, .array items⟩ ∧
        List.Forall₂ (fun root shown => whole.FieldsFromBoth before after resource view
          query.directives root.id shown) page.1 items) ∨
      ∃ root ∈ page.1, ∃ error, api.list before resource query = .error (.overflow error) ∧
        whole.get after resource root.id query = .error (.overflow error) := by
  intro api whole
  let set := ExpansionSet.ofDirectives view limits query.directives
  obtain ⟨paginator, paginated⟩ := exists_paginator query limits page.2
  have attached := (Store.populate_eq_ok_iff.1 populated).2
  have served : api.list before resource query =
      (((grown.map Document.entity).mapM
          (projectEntity (Envelope.projectorOf view limits query.directives))).map fun items =>
        ⟨whole.collectionUrl resource, some paginator, .array items⟩).mapError
          RequestError.overflow := by
    refine (list_interrupted known lists paginated).trans ?_
    rw [populated]
    rfl
  have each : ∀ root ∈ page.1, ∃ record, before.record? resource root.id = some record ∧
      root = before.document resource root.id record ∧
      after.checkPaths resource set = .ok () := by
    intro root mem
    obtain ⟨record, there, loaded⟩ := Store.exists_record_of_mem_list precedes.ids.1 lists mem
    have checked := Store.checkPaths_of_populate populated mem
    rw [loaded, Store.kind_document] at checked
    exact ⟨record, there, loaded, checked⟩
  cases mapped : (grown.map Document.entity).mapM
      (projectEntity (Envelope.projectorOf view limits query.directives)) with
  | ok items =>
    refine .inl ⟨paginator, items, paginated, by rw [served, mapped]; rfl, ?_⟩
    have rows := mapM_eq_ok_iff.1 mapped
    rw [List.forall₂_map_left_iff] at rows
    refine ((List.forall₂_and_left _ _).2 ⟨each, forall₂_comp attached rows⟩).imp ?_
    rintro root shown ⟨⟨record, there, loaded, checked⟩, document, attaches, projected⟩
    rw [loaded] at attaches
    exact fieldsFromBoth precedes known there checked attaches projected
  | error error =>
    obtain ⟨entity, mem, failed⟩ := mapM_eq_error_iff.1 mapped
    obtain ⟨document, inside, rfl⟩ := List.mem_map.1 mem
    obtain ⟨root, mem, attaches⟩ := exists_mem_of_forall₂ attached inside
    obtain ⟨record, there, loaded, checked⟩ := each root mem
    rw [loaded] at attaches
    exact .inr ⟨root, mem, error, by rw [served, mapped]; rfl,
      get_overflows precedes known there checked attaches failed⟩

/-- What is answered whatever is written between loading and populating the roots of a request: every
root of the first state once and in its place, and each of its fields from one of the two states.  A
response that overflows does so at the second state as well. -/
theorem interrupted_exact (registry : Registry) (limits : Limits) (budget : Option Nat)
    (earlier between : List Store.Command) :
    let before := Store.empty.run earlier
    let after := before.run between
    let api := interrupted registry limits budget after
    let whole := overStore registry limits budget
    ∀ resource view query, registry.view? resource = some view →
      let set := ExpansionSet.ofDirectives view limits query.directives
      let selection := query.rootSelection limits
      let shows (root : Document) (shown : Json) :=
        whole.FieldsFromBoth before after resource view query.directives root.id shown
      let overflows (answer : Except RequestError Envelope) (root : Document) :=
        ∃ error, answer = .error (.overflow error) ∧
          whole.get after resource root.id query = .error (.overflow error)
      (∀ page, before.list resource selection = .ok page → (page.1.map Document.id).Nodup ∧
        ∀ grown, after.populate page.1 set = .ok grown →
          List.Forall₂ Document.SameRecord page.1 grown ∧
          ((∃ paginator items, Paginator.ofSelection page.2 selection = .ok paginator ∧
              api.list before resource query =
                .ok ⟨whole.collectionUrl resource, some paginator, .array items⟩ ∧
              List.Forall₂ shows page.1 items) ∨
            ∃ root ∈ page.1, overflows (api.list before resource query) root)) ∧
      ∀ id root, before.find? resource id = some root →
        ∀ grown, after.populate [root] set = .ok grown →
          List.Forall₂ Document.SameRecord [root] grown ∧
          ((∃ shown, api.get before resource id query =
                .ok ⟨itemUrl (whole.collectionUrl resource) id.text, none, shown⟩ ∧
              shows root shown) ∨
            overflows (api.get before resource id query) root) := by
  intro before after api whole resource view query known set selection shows overflows
  have precedes : before.Precedes after := Store.precedes_run
    ((Store.reaches_run .empty earlier).hasDistinctIds Store.hasDistinctIds_empty)
    (Store.hasDistinctRelations_run earlier) between
  refine ⟨fun page lists => ⟨Store.nodup_ids_list precedes.ids.1 lists, fun grown populated => ?all⟩,
    ?one⟩
  case all =>
    exact ⟨Store.sameRecord_populate populated, list_fromBoth precedes known lists populated⟩
  case one =>
    intro id root found grown populated
    obtain ⟨record, there, rfl⟩ := Option.map_eq_some_iff.1 found
    refine ⟨Store.sameRecord_populate populated, ?_⟩
    have allowed := Store.checkPaths_of_populate populated (List.mem_singleton_self _)
    rw [Store.kind_document] at allowed
    obtain ⟨mixed, _, mixes, -, -⟩ :=
      List.forall₂_cons_left_iff.1 (Store.populate_eq_ok_iff.1 populated).2
    simp only [shows, overflows, Store.id_document]
    exact get_fromBoth precedes known there allowed mixes

/-! ### An example -/

/-- A third tag for the article of the blog, and reviews. -/
def tagAdded : List Store.Command := [
  .create (Uuid.ofRandom 5) "2024-01-05T00:00:00Z" "tags" [("name", .string "cedar")],
  .define "articles" "reviews" ⟨"reviews", .many⟩,
  .link "articles" (Uuid.ofRandom 3) "tags" (Uuid.ofRandom 5)]

theorem list_blog : ∃ root, Store.blog.list "articles" (Query.rootSelection {} {}) = .ok ([root], 1) ∧
    root.kind = "articles" ∧ root.id = Uuid.ofRandom 3 := by
  have listed : (Store.blog.list "articles" (Query.rootSelection {} {})).toOption.map
      (fun page => (page.1.map fun root => (root.kind, root.id), page.2)) =
        some ([("articles", Uuid.ofRandom 3)], 1) := by decide +kernel
  obtain ⟨⟨roots, total⟩, lists, same⟩ := Option.map_eq_some_iff.1 listed
  obtain ⟨ids, rfl⟩ := Prod.mk.inj same
  obtain ⟨root, rfl, named⟩ := List.map_eq_singleton_iff.1 ids
  exact ⟨root, toOption_eq_some_iff.1 lists, Prod.mk.inj named⟩

theorem follow?_tagAdded : ∀ path ∈ (ExpansionSet.ofDirectives
      ⟨Registry.collect articlesOnly.declarations, articles.relations, 1⟩ {} ["tags"]).keys,
    ((Store.blog.run tagAdded).follow? "articles" path.segments).isSome = true := by
  decide +kernel

theorem exists_get_tagAdded :
    ∃ envelope, (overStore (Registry.collect articlesOnly.declarations) {} none).get
      (Store.blog.run tagAdded) "articles" (Uuid.ofRandom 3) { expand := some "tags" } =
        .ok envelope := by
  let after := Store.blog.run tagAdded
  let view : View := ⟨Registry.collect articlesOnly.declarations, articles.relations, 1⟩
  have there : (after.record? "articles" (Uuid.ofRandom 3)).isSome = true := by decide +kernel
  have rendered : (after.record? "articles" (Uuid.ofRandom 3)).all (fun record =>
      ((after.attached (ExpansionSet.ofDirectives view {} ["tags"]) [] "articles"
        (Uuid.ofRandom 3) record).toOption.bind fun grown =>
          (projectEntity (Envelope.projectorOf view {} ["tags"])
            grown.entity).toOption).isSome) = true := by
    decide +kernel
  obtain ⟨record, there⟩ := Option.isSome_iff_exists.1 there
  rw [there] at rendered
  exact exists_get view record view?_articlesOnly there follow?_tagAdded rendered

/-- A tag is added while the article with its tags is listed and fetched. -/
theorem interrupted_exact_blog :
    let before := Store.empty.run Store.blogCommands
    let after := before.run tagAdded
    let registry := Registry.collect articlesOnly.declarations
    let api := interrupted registry {} none after
    let whole := overStore registry {} none
    let view : View := ⟨registry, articles.relations, 1⟩
    let query : Query := { expand := some "tags" }
    let id := Uuid.ofRandom 3
    registry.view? "articles" = some view ∧
      before.links ⟨"articles", id, "tags"⟩ ≠ after.links ⟨"articles", id, "tags"⟩ ∧
      (∃ paginator shown, paginator.totalEntries = 1 ∧
        api.list before "articles" query = .ok ⟨"/articles", some paginator, .array [shown]⟩ ∧
        whole.FieldsFromBoth before after "articles" view query.directives id shown) ∧
      ∃ shown, api.get before "articles" id query =
          .ok ⟨"/articles/00000000-0000-4000-8000-000000000003", none, shown⟩ ∧
        whole.FieldsFromBoth before after "articles" view query.directives id shown := by
  intro before after registry api whole view query id
  obtain ⟨listed, fetched⟩ := interrupted_exact registry {} none Store.blogCommands tagAdded
    "articles" view query view?_articlesOnly
  obtain ⟨root, lists, kind, named⟩ := list_blog
  obtain ⟨envelope, answered⟩ := exists_get_tagAdded
  obtain ⟨grown, attaches⟩ := Store.exists_attach_of_short (Store.blogCommands ++ tagAdded)
    (by decide) (ExpansionSet.ofDirectives view {} query.directives) root
  have populated : after.populate [root] (ExpansionSet.ofDirectives view {} query.directives) =
      .ok [grown] := by
    refine Store.populate_eq_ok_iff.2 ⟨.inr fun root mem => ?_, .cons attaches .nil⟩
    rw [List.mem_singleton.1 mem, kind]
    exact Store.checkPaths_eq_ok_iff.2 follow?_tagAdded
  have found : before.find? "articles" id = some root := by
    have distinct : before.HasDistinctIds :=
      (Store.reaches_run .empty Store.blogCommands).hasDistinctIds Store.hasDistinctIds_empty
    have loaded := Store.find?_of_mem_list distinct lists (List.mem_singleton_self root)
    rwa [named] at loaded
  -- Neither answer overflows, since the article is fetched at the second state.
  have fits : ∀ error, whole.get after "articles" root.id query ≠ .error (.overflow error) := by
    intro error wrong
    rw [named] at wrong
    cases answered.symm.trans wrong
  refine ⟨view?_articlesOnly, by decide +kernel, ?_, ?_⟩
  · obtain ⟨-, ⟨paginator, items, paginated, served, shown⟩ | ⟨failing, mem, error, -, wrong⟩⟩ :=
      (listed _ lists).2 _ populated
    · obtain ⟨first, _, fields, none, rfl⟩ := List.forall₂_cons_left_iff.1 shown
      cases none
      simp only [named] at fields
      exact ⟨paginator, first, totalEntries_ofSelection paginated, served, fields⟩
    · rw [List.mem_singleton.1 mem] at wrong
      exact absurd wrong (fits error)
  · obtain ⟨-, ⟨shown, served, fields⟩ | ⟨error, -, wrong⟩⟩ := fetched id root found _ populated
    · have url : itemUrl (whole.collectionUrl "articles") id.text =
          "/articles/00000000-0000-4000-8000-000000000003" := by decide +kernel
      rw [named] at fields
      exact ⟨shown, url ▸ served, fields⟩
    · exact absurd wrong (fits error)

end Api

end RelationExpansion
