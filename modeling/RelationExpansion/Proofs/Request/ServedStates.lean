import RelationExpansion.Proofs.Request.IncludedRelations

/-! # Serving from one state or from two

A request reads the store twice: it loads its roots, and then it attaches their relations.  The api
of `interrupted` reads a later state the second time, and is the api of one store where nothing has
changed in between.  Fetching and listing are equations in what is attached, so whatever request shows
a record renders the record as it is attached (`Renders.exists_record`).
-/

namespace RelationExpansion

/-! ## What is listed -/

namespace Store

variable {store : Store} {kind : String} {selection : Selection} {page : List Document × Nat}
  {root : Document}

theorem list_eq_ok_iff :
    store.list kind selection = .ok page ↔ ∃ shown total,
      selection.select (store.records kind) = .ok (shown, total) ∧
        page = (shown.map fun entry => store.document kind entry.1 entry.2, total) := by
  rw [list, map_eq_ok_iff, Prod.exists]
  simp only [eq_comm]

theorem nodup_ids_list (distinct : store.HasDistinctIds)
    (lists : store.list kind selection = .ok page) : (page.1.map Document.id).Nodup := by
  obtain ⟨shown, total, selects, rfl⟩ := list_eq_ok_iff.1 lists
  obtain ⟨arranged, arranges, within⟩ := Selection.sublist_of_select selects
  have ids : (shown.map fun entry => store.document kind entry.1 entry.2).map Document.id =
      shown.map Prod.fst := by
    rw [List.map_map]
    exact List.map_congr_left fun entry _ => store.id_document kind entry.1 entry.2
  rw [ids]
  exact (within.map Prod.fst).nodup (Selection.nodup_keys_of_arrange (distinct kind) arranges)

theorem exists_record_of_mem_list (distinct : store.HasDistinctIds)
    (lists : store.list kind selection = .ok page) (mem : root ∈ page.1) :
    ∃ record, store.record? kind root.id = some record ∧
      root = store.document kind root.id record := by
  obtain ⟨shown, total, selects, rfl⟩ := list_eq_ok_iff.1 lists
  obtain ⟨entry, inside, rfl⟩ := List.mem_map.1 mem
  have stored : entry ∈ store.records kind := (Selection.mem_of_mem_select selects inside).1
  refine ⟨entry.2, ?_, by rw [id_document]⟩
  rw [id_document]
  exact Assoc.get?_eq_some_of_mem (distinct kind) stored

theorem find?_of_mem_list (distinct : store.HasDistinctIds)
    (lists : store.list kind selection = .ok page) (mem : root ∈ page.1) :
    store.find? kind root.id = some root := by
  obtain ⟨record, there, loaded⟩ := exists_record_of_mem_list distinct lists mem
  rw [find?, there, Option.map_some, ← loaded]

end Store

/-! ## Requests -/

namespace Api

variable {registry : Registry} {limits : Limits} {budget : Option Nat} {resource : String}
  {id : Uuid} {query : Query} {view : View}

/-- The api of a store whose relations are attached from a later state. -/
def interrupted (registry : Registry) (limits : Limits) (budget : Option Nat) (later : Store) :
    Api Store where
  registry := registry
  limits := limits
  gatewayBudget := budget
  service := Store.service
  gateway := ⟨fun _ roots set => Reply.ofResult (later.populate roots set)⟩

theorem populate_interrupted {store later : Store} {roots : List Document} {set : ExpansionSet} :
    (interrupted registry limits budget later).populate store roots set =
      (later.populate roots set).mapError (RequestError.ofUnfinished Failure.populate) := by
  show (overStore registry limits budget).populate later roots set = _
  exact populate_overStore

/-- Where nothing is written in between, a store serves alone. -/
theorem get_overStore {store : Store} : (overStore registry limits budget).get store resource id
    query = (interrupted registry limits budget store).get store resource id query :=
  rfl

theorem list_overStore {store : Store} : (overStore registry limits budget).list store resource
    query = (interrupted registry limits budget store).list store resource query :=
  rfl

theorem exists_paginator (query : Query) (limits : Limits) (total : Nat) :
    ∃ paginator, Paginator.ofSelection total (query.rootSelection limits) = .ok paginator := by
  have counts : ∀ number, .page number ∈ query.modifiers → number ≤ Count.largest := by
    intro number mem
    simp only [Query.modifiers, List.mem_append, Option.mem_toList, Option.map_eq_some_iff] at mem
    rcases mem with ((⟨_, -, wrong⟩ | ⟨count, read, same⟩) | ⟨_, -, wrong⟩) | ⟨_, -, wrong⟩
    · cases wrong
    · cases same
      obtain ⟨text, -, read⟩ := Option.bind_eq_some_iff.1 read
      simpa using (Option.filter_eq_some_iff.1 read).2
    · cases wrong
    · cases wrong
  obtain ⟨page, fits⟩ : ∃ page, (query.rootSelection limits).page = .ok page :=
    Selection.page_ofModifiers counts
  exact ⟨_, by rw [Paginator.ofSelection, fits]; rfl⟩

/-- A listing of a page ends at the population, or shows all the roots, or overflows at one of
them. -/
theorem list_interrupted {store later : Store} {page : List Document × Nat} {paginator : Paginator}
    (known : registry.view? resource = some view)
    (lists : store.list resource (query.rootSelection limits) = .ok page)
    (paginated : Paginator.ofSelection page.2 (query.rootSelection limits) = .ok paginator) :
    (interrupted registry limits budget later).list store resource query =
      (later.populate page.1
          (ExpansionSet.ofDirectives view limits query.directives)).mapError
        (RequestError.ofUnfinished Failure.populate) >>= fun grown =>
      (((grown.map Document.entity).mapM
          (projectEntity (Envelope.projectorOf view limits query.directives))).map fun items =>
        ⟨(overStore registry limits budget).collectionUrl resource, some paginator,
          .array items⟩).mapError RequestError.overflow := by
  let api := interrupted registry limits budget later
  have selected : api.list store resource query = (api.populate store page.1
        (ExpansionSet.ofDirectives view limits query.directives) >>= fun grown =>
      Api.envelope (.collection (grown.map Document.entity) page.2
        (some (query.rootSelection limits))) (api.collectionUrl resource)
        (ExpansionSet.ofDirectives view limits query.directives) view) := by
    simp only [Api.list, expansionSet, Api.view, api, interrupted, Store.service, known, lists]
    rfl
  rw [selected, populate_interrupted]
  congr 1
  funext grown
  rw [Api.envelope, Envelope.build_collection, projectAll]
  cases (grown.map Document.entity).mapM
    (projectEntity (Envelope.projectorOf view limits query.directives)) with
  | error error => rfl
  | ok items =>
    show (((fun own => some own) <$> Paginator.ofSelection _ _) >>= _).mapError _ = _
    rw [paginated]
    rfl

theorem get_interrupted {store later : Store} {record : Record} {grown : Document}
    (known : registry.view? resource = some view)
    (there : store.record? resource id = some record)
    (allowed : later.checkPaths resource (ExpansionSet.ofDirectives view limits query.directives) =
      .ok ())
    (attaches : later.attach (ExpansionSet.ofDirectives view limits query.directives) []
      (store.document resource id record) = .ok grown) :
    (interrupted registry limits budget later).get store resource id query =
      ((projectEntity (Envelope.projectorOf view limits query.directives) grown.entity).map
        fun shown => ⟨itemUrl ((overStore registry limits budget).collectionUrl resource) id.text,
          none, shown⟩).mapError RequestError.overflow := by
  let api := interrupted registry limits budget later
  let set := ExpansionSet.ofDirectives view limits query.directives
  let root := store.document resource id record
  have found : store.find? resource id = some root := by rw [Store.find?, there, Option.map_some]
  have loaded : api.get store resource id query = api.single store resource root set view := by
    simp only [Api.get, expansionSet, Api.view, api, interrupted, Store.service, known, found]
    rfl
  have populated : later.populate [root] set = .ok [grown] :=
    Store.populate_eq_ok_iff.2 ⟨.inr (by simpa [root] using allowed), .cons attaches .nil⟩
  rw [loaded, single, populate_interrupted, populated, Store.id_document]
  rfl

/-- Whether a request with certain directives that is served at one state shows a record in some
way. -/
inductive Renders (api : Api Store) (store : Store) (resource : String) (texts : List String)
    (id : Uuid) : Json → Prop where
  | fetched {query : Query} {envelope : Envelope} :
      query.directives = texts → api.get store resource id query = .ok envelope →
      Renders api store resource texts id envelope.data
  | listed {query : Query} {envelope : Envelope} {items : List Json} {root : Document}
      {page : List Document × Nat} {shown : Json} :
      query.directives = texts → api.list store resource query = .ok envelope →
      envelope.data = .array items →
      store.list resource (query.rootSelection api.limits) = .ok page →
      (root, shown) ∈ page.1.zip items → root.id = id →
      Renders api store resource texts id shown

/-- Whatever request shows a record, it renders the record as it is attached at that state. -/
theorem Renders.exists_record {store : Store} {texts : List String} {shown : Json}
    (known : registry.view? resource = some view) (distinct : store.HasDistinctIds)
    (renders : (overStore registry limits budget).Renders store resource texts id shown) :
    ∃ record grown, store.record? resource id = some record ∧
      store.attached (ExpansionSet.ofDirectives view limits texts) [] resource id record =
        .ok grown ∧
      projectEntity (Envelope.projectorOf view limits texts) grown.entity = .ok shown := by
  cases renders with
  | fetched same fetched =>
    obtain ⟨record, there⟩ := exists_record_of_get fetched
    obtain ⟨-, grown, shown, attaches, projected, rfl⟩ := (get_eq_ok_iff known there).1 fetched
    exact ⟨record, grown, there, by rwa [← same], by rwa [← same]⟩
  | listed same listed data lists mem named =>
    rename_i query envelope items root page
    subst same named
    have lists : store.list resource (query.rootSelection limits) = .ok page := lists
    obtain ⟨paginator, paginated⟩ := exists_paginator query limits page.2
    rw [list_overStore, list_interrupted known lists paginated] at listed
    obtain ⟨grown, populated, rendered⟩ := bind_eq_ok_iff.1 listed
    obtain ⟨-, attached⟩ := Store.populate_eq_ok_iff.1 (mapError_eq_ok_iff.1 populated)
    obtain ⟨_, mapped, rfl⟩ := map_eq_ok_iff.1 (mapError_eq_ok_iff.1 rendered)
    cases data
    have rows := mapM_eq_ok_iff.1 mapped
    rw [List.forall₂_map_left_iff] at rows
    obtain ⟨document, attaches, projected⟩ := List.forall₂_zip (forall₂_comp attached rows) mem
    obtain ⟨record, there, loaded⟩ :=
      Store.exists_record_of_mem_list distinct lists (List.of_mem_zip mem).1
    exact ⟨record, document, there, by rwa [Store.attached, ← loaded], projected⟩

end Api

end RelationExpansion
