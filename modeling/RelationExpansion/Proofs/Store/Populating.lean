import RelationExpansion.Proofs.Store.Following
import RelationExpansion.Proofs.Store.Listing
import RelationExpansion.Proofs.Store.Visiting

/-! # What populating gives

A document that is reached over requested relations is the attached form of what the store holds
under its identifier (`Reached.attach_eq_ok`), so it holds documents wherever the set asks for them.

Populating is refused exactly when the store cannot follow a path from one of the roots.  It is also
left without a result where linked records cannot be sorted, though all paths can be followed
(`mixed_ranks_are_not_populated`).
-/

namespace RelationExpansion

namespace Store

variable {store : Store} {set : ExpansionSet} {stack : List String} {document after : Document}
  {roots populated : List Document} {root : Document}

/-! ## Documents that are reached -/

/-- The documents inside a populated root that are reached over requested relations: the stack of
relations, the document as the store has it, and the document that was reached.  The root itself
need not be in the store. -/
inductive Reached (store : Store) (set : ExpansionSet) (root populated : Document) :
    List String → Document → Document → Prop where
  | root : Reached store set root populated [] root populated
  | child {stack : List String} {before after loaded inner : Document} {relation : String}
      {definition : RelationDef} {slot : Slot} :
      Reached store set root populated stack before after →
      store.relation? after.kind relation = some definition →
      (set.child? stack relation).isSome = true →
      Assoc.get? relation after.relations = some slot → .document inner ∈ slot.items →
      store.find? definition.target inner.id = some loaded →
      Reached store set root populated (stack ++ [relation]) loaded inner

/-- The document that was attached for one of the records that a relation leads to. -/
structure IsChild (store : Store) (target : String) (entry : Uuid × Record) (child : Document) :
    Prop where
  kind : child.kind = target
  id : child.id = entry.1
  stored : store.find? target entry.1 = some (store.document target entry.1 entry.2)

/-- What populating has done to a document that was reached over a stack: every requested relation
holds the documents of the right records, and all else is as before. -/
structure PopulatedAt (store : Store) (set : ExpansionSet) (stack : List String)
    (before after : Document) : Prop where
  kind : after.kind = before.kind
  id : after.id = before.id
  attributes : after.attributes = before.attributes
  many : ∀ relation target selection,
    store.relation? before.kind relation = some ⟨target, .many⟩ →
    set.child? stack relation = some selection →
    ∃ linked arranged children, store.LeadsTo before.kind before.id relation target linked ∧
      selection.arrange linked = .ok arranged ∧ selection.Arranges linked arranged ∧
      Assoc.get? relation after.relations =
        some (.many (children.map Item.document) (some (selection.matching linked).length)) ∧
      List.Forall₂ (store.IsChild target)
        ((arranged.drop selection.skip).take selection.limit) children
  one : ∀ relation target selection,
    store.relation? before.kind relation = some ⟨target, .one⟩ →
    set.child? stack relation = some selection →
    ∃ linked, store.LeadsTo before.kind before.id relation target linked ∧
      (linked = [] → Assoc.get? relation after.relations = some .vacant) ∧
      ∀ first, linked.head? = some first → ∃ child, store.IsChild target first child ∧
        Assoc.get? relation after.relations = some (.one (.document child))
  others : ∀ relation,
    store.relation? before.kind relation = none ∨ set.child? stack relation = none →
    Assoc.get? relation after.relations = Assoc.get? relation before.relations

section Attached

variable {kind relation target : String} {id : Uuid} {record : Record}
  {linked : List (Uuid × Record)} {entry : Uuid × Record} {child : Document}

theorem kind_attached (made : store.attached set stack kind id record = .ok child) :
    child.kind = kind := by
  rw [kind_attach made, kind_document]

theorem id_attached (made : store.attached set stack kind id record = .ok child) :
    child.id = id := by
  rw [id_attach made, id_document]

theorem attributes_attached (made : store.attached set stack kind id record = .ok child) :
    child.attributes = (Document.ofRecord kind id record).attributes := by
  rw [attributes_attach made, document_eq]

theorem slot_attached {definition : RelationDef} {selection : Selection}
    (made : store.attached set stack kind id record = .ok child)
    (distinct : store.HasDistinctRelations)
    (defined : store.relation? kind relation = some definition)
    (asked : set.child? stack relation = some selection) :
    ∃ slot, populatedSlot definition selection
        (store.linkedRecords kind id relation definition.target)
        (store.attached set (stack ++ [relation]) definition.target) = .ok slot ∧
      Assoc.get? relation child.relations = some slot := by
  have held := slot_attach_requested made distinct (by rwa [kind_document]) asked
  rwa [kind_document, id_document] at held

theorem LeadsTo.isChild (leads : store.LeadsTo kind id relation target linked)
    (mem : entry ∈ linked) (made : store.attached set stack target entry.1 entry.2 = .ok child) :
    store.IsChild target entry child :=
  ⟨kind_attached made, id_attached made, leads.find?_eq mem⟩

end Attached

theorem populatedAt_of_attach (distinct : store.HasDistinctRelations)
    (attaches : store.attach set stack document = .ok after) :
    store.PopulatedAt set stack document after where
  kind := kind_attach attaches
  id := id_attach attaches
  attributes := attributes_attach attaches
  many relation target selection defined asked := by
    have leads := leadsTo_linkedRecords store document.kind document.id relation target
    obtain ⟨slot, made, held⟩ := slot_attach_requested attaches distinct defined asked
    obtain ⟨page, total, children, selects, attached, rfl⟩ := populatedSlot_many_eq_ok_iff.1 made
    obtain ⟨arranged, arranges, rfl, rfl⟩ := Selection.select_eq_ok_iff.1 selects
    have perm := Selection.perm_of_arrange arranges
    refine ⟨_, arranged, children, leads, arranges, Selection.arranges_of_arrange arranges,
      perm.length_eq ▸ held, ?_⟩
    have linked : ∀ entry ∈ (arranged.drop selection.skip).take selection.limit,
        entry ∈ store.linkedRecords document.kind document.id relation target :=
      fun entry mem => (Selection.mem_of_mem_select selects mem).1
    refine ((List.forall₂_and_left _ _).2 ⟨linked, attached⟩).imp ?_
    rintro entry child ⟨mem, made⟩
    exact leads.isChild mem made
  one relation target selection defined asked := by
    have leads := leadsTo_linkedRecords store document.kind document.id relation target
    obtain ⟨slot, made, held⟩ := slot_attach_requested attaches distinct defined asked
    refine ⟨_, leads, fun none => ?_, fun first here => ?_⟩
    all_goals rcases populatedSlot_one_eq_ok_iff.1 made with
      ⟨vacant, rfl⟩ | ⟨other, child, there, attached, rfl⟩
    · exact held
    · rw [none] at there
      cases there
    · rw [vacant] at here
      cases here
    · cases here.symm.trans there
      exact ⟨child, leads.isChild (List.mem_of_mem_head? here) attached, held⟩
  others relation left := by
    refine slot_attach_unrequested attaches fun definition defined => ?_
    rcases left with undefined | unasked
    · rw [undefined] at defined
      cases defined
    · exact unasked

/-- Every document that is reached is the attached form of what the store has loaded. -/
theorem Reached.attach_eq_ok (distinct : store.HasDistinctRelations)
    {root grown before after : Document} (attaches : store.attach set [] root = .ok grown)
    (reached : store.Reached set root grown stack before after) :
    store.attach set stack before = .ok after := by
  induction reached with
  | root => exact attaches
  | child _ defined asked held mem found ih =>
    rename_i stack before after loaded inner relation definition _ _
    obtain ⟨selection, asked⟩ := Option.isSome_iff_exists.1 asked
    rw [kind_attach ih] at defined
    obtain ⟨slot, made, here⟩ := slot_attach_requested ih distinct defined asked
    cases held.symm.trans here
    obtain ⟨entry, linked, document, attached, same, -⟩ := mem_items_populatedSlot made mem
    cases same
    have leads := leadsTo_linkedRecords store before.kind before.id relation definition.target
    rw [id_attached attached, leads.find?_eq linked] at found
    cases found
    exact attached

/-! ## Populating -/

theorem child?_of_isEmpty (nothing : set.isEmpty = true) (relation : String) :
    set.child? stack relation = none := by
  have none : set.entries = [] := by simpa [OrderedMap.isEmpty] using nothing
  rw [ExpansionSet.child?, OrderedMap.get?, none]
  rfl

theorem attach_of_isEmpty (nothing : set.isEmpty = true) (document : Document) :
    store.attach set stack document = .ok document := by
  have unasked : ∀ relation, set.child? stack relation = none := child?_of_isEmpty nothing
  have slots : store.writtenSlots set stack document.kind document.id = [] := by
    simp [writtenSlots, writtenSlot, requestedSlot, unasked]
  refine attach_eq_ok_iff.2 ⟨attachable_iff.2 fun relation definition selection _ asked => ?_, ?_⟩
  · rw [unasked] at asked
    cases asked
  · rw [slots]
    cases document
    rfl

theorem populate_eq_ok_iff :
    store.populate roots set = .ok populated ↔
      (set.isEmpty = true ∨ ∀ root ∈ roots, store.checkPaths root.kind set = .ok ()) ∧
        List.Forall₂ (fun root grown => store.attach set [] root = .ok grown) roots populated := by
  rw [populate]
  split
  · rename_i nothing
    simp only [attach_of_isEmpty nothing, Except.ok.injEq, List.forall₂_eq_eq_eq]
    simp [nothing]
  · rename_i something
    rw [bind_unit_eq_ok_iff, mapError_eq_ok_iff, mapError_eq_ok_iff, forM_eq_ok_iff, mapM_eq_ok_iff]
    simp [something]

theorem checkPaths_of_populate (succeeded : store.populate roots set = .ok populated)
    (mem : root ∈ roots) : store.checkPaths root.kind set = .ok () :=
  (populate_eq_ok_iff.1 succeeded).1.elim checkPaths_of_isEmpty fun all => all root mem

/-- The store can follow every path of the set from every root. -/
def FollowsAll (store : Store) (roots : List Document) (set : ExpansionSet) : Prop :=
  ∀ root ∈ roots, ∀ path ∈ set.keys, ∃ kind, store.follow? root.kind path.segments = some kind

theorem followsAll_iff :
    store.FollowsAll roots set ↔ ∀ root ∈ roots, store.checkPaths root.kind set = .ok () := by
  simp only [FollowsAll, checkPaths_eq_ok_iff, Option.isSome_iff_exists]

theorem everySort_of_isEmpty (nothing : set.isEmpty = true) {kind : String} {id : Uuid}
    {holds : Selection → List (Uuid × Record) → Prop} : store.EverySort set kind id holds := by
  intro _ _ _ relation _ selection _ _ _ asked
  rw [child?_of_isEmpty nothing] at asked
  cases asked

theorem exists_populate_iff (distinct : store.HasDistinctRelations) :
    (∃ populated, store.populate roots set = .ok populated) ↔
      (set.isEmpty = true ∨ store.FollowsAll roots set) ∧
        ∀ root ∈ roots, store.EverySort set root.kind root.id Selection.Arrangeable := by
  simp only [populate_eq_ok_iff, exists_and_left, followsAll_iff, ← mapM_eq_ok_iff,
    exists_mapM_iff, exists_attach_iff_everySort distinct]

theorem exists_populate_failed_iff :
    (∃ error, store.populate roots set = .error (.failed error)) ↔
      set.isEmpty = false ∧ ¬ store.FollowsAll roots set := by
  simp only [populate_failed_iff, exists_and_left, ← ne_ok_iff, ne_eq, forM_eq_ok_iff,
    followsAll_iff]

/-- When populating succeeds, and what it gives.  If all paths can be followed there is a result
provided that the linked records on the way can be sorted, as they can where no list of more than
twenty of them mixes types in a field that it is sorted by. -/
theorem populate_exact (store : Store) (distinct : store.HasDistinctRelations)
    (roots : List Document) (set : ExpansionSet) :
    ((∃ populated, store.populate roots set = .ok populated) ↔
      set.isEmpty = true ∨ store.FollowsAll roots set ∧
        ∀ root ∈ roots, store.EverySort set root.kind root.id Selection.Arrangeable) ∧
    ((∃ error, store.populate roots set = .error (.failed error)) ↔
      set.isEmpty = false ∧ ¬ store.FollowsAll roots set) ∧
    ((∀ root ∈ roots, store.EverySort set root.kind root.id fun selection linked =>
        selection.SortsSafely (selection.matching linked)) →
      ((∃ populated, store.populate roots set = .ok populated) ↔
        set.isEmpty = true ∨ store.FollowsAll roots set)) ∧
    ∀ populated, store.populate roots set = .ok populated →
      List.Forall₂ (fun root grown => ∀ stack before after,
        store.Reached set root grown stack before after →
          store.PopulatedAt set stack before after) roots populated := by
  refine ⟨?_, exists_populate_failed_iff, fun safe => ?_, fun populated succeeded => ?_⟩
  · rw [exists_populate_iff distinct]
    constructor
    · rintro ⟨nothing | followed, sorted⟩
      · exact .inl nothing
      · exact .inr ⟨followed, sorted⟩
    · rintro (nothing | ⟨followed, sorted⟩)
      · exact ⟨.inl nothing, fun _ _ => everySort_of_isEmpty nothing⟩
      · exact ⟨.inr followed, sorted⟩
  · rw [exists_populate_iff distinct]
    exact and_iff_left fun root mem =>
      (safe root mem).imp fun _ _ => Selection.exists_arrange
  · refine (populate_eq_ok_iff.1 succeeded).2.imp ?_
    intro root grown attaches stack before after reached
    exact populatedAt_of_attach distinct (reached.attach_eq_ok distinct attaches)

/-- The second page of the tags of an article, the articles of that tag and their author. -/
theorem populate_exact_blog :
    let set : ExpansionSet := OrderedMap.ofList
      [(⟨"tags"⟩, { limit := 1, skip := 1, sort := some (SortSpec.ofText "name|desc") }),
        (⟨"tags.articles"⟩, { limit := 5 }), (⟨"tags.articles.author"⟩, { limit := 5 })]
    let root := blog.document "articles" (Uuid.ofRandom 3) [("title", .string "Hello")]
    blog.HasDistinctRelations ∧ ∃ populated, blog.populate [root] set = .ok populated ∧
      List.Forall₂ (fun root grown => ∀ stack before after,
        blog.Reached set root grown stack before after →
          blog.PopulatedAt set stack before after) [root] populated := by
  intro set root
  have distinct : blog.HasDistinctRelations := hasDistinctRelations_run blogCommands
  obtain ⟨-, -, succeeds, exactly⟩ := populate_exact blog distinct [root] set
  have followed : ∀ path ∈ set.keys, (blog.follow? "articles" path.segments).isSome = true := by
    decide
  have sorted : ∀ document ∈ [root], blog.EverySort set document.kind document.id
      fun selection linked => selection.SortsSafely (selection.matching linked) :=
    fun _ _ => everySort_run (by decide)
  obtain ⟨populated, succeeded⟩ := (succeeds sorted).2 <| .inr fun document mem path asked => by
    rw [List.mem_singleton.1 mem, kind_document]
    exact Option.isSome_iff_exists.1 (followed path asked)
  exact ⟨distinct, populated, succeeded, exactly populated succeeded⟩

/-- A list of the records of `mixedRanks`. -/
def mixedList : Store :=
  mixedRanks.run <|
    .define "lists" "items" ⟨"items", .many⟩ ::
    .create (Uuid.ofRandom 22) "2024-01-01T00:00:00Z" "lists" [] ::
    (List.range 21).map fun place =>
      .link "lists" (Uuid.ofRandom 22) "items" (Uuid.ofRandom (place + 1))

/-- All paths can be followed, but the linked records cannot be sorted. -/
theorem mixed_ranks_are_not_populated :
    let set : ExpansionSet :=
      OrderedMap.ofList [(⟨"items"⟩, { limit := 5, sort := some (SortSpec.ofText "rank") })]
    let root := mixedList.document "lists" (Uuid.ofRandom 22) []
    mixedList.HasDistinctRelations ∧ mixedList.FollowsAll [root] set ∧
      mixedList.populate [root] set = .error (.unsorted .inconsistentComparison) := by
  intro set root
  have distinct : mixedList.HasDistinctRelations := by
    refine (reaches_run mixedRanks _).hasDistinctRelations ?_
    exact hasDistinctRelations_run _
  have followed : ∀ path ∈ set.keys, (mixedList.follow? "lists" path.segments).isSome = true := by
    decide
  have follows : mixedList.FollowsAll [root] set := fun document mem path asked => by
    rw [List.mem_singleton.1 mem, kind_document]
    exact Option.isSome_iff_exists.1 (followed path asked)
  have none : (mixedList.populate [root] set).toOption.isNone = true := by
    decide +kernel
  refine ⟨distinct, follows, ?_⟩
  cases outcome : mixedList.populate [root] set with
  | ok populated =>
    rw [outcome] at none
    cases none
  | error reason =>
    cases reason with
    | failed error => exact absurd follows (exists_populate_failed_iff.1 ⟨error, outcome⟩).2
    | unsorted disorder =>
      cases disorder
      rfl

end Store

end RelationExpansion
