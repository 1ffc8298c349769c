import RelationExpansion.Proofs.Store.Populating

/-! # Filters of populated relations

The records of a to-many relation are filtered before they are attached, at whatever depth the
relation is reached.  A to-one relation is not filtered: it holds its first linked record, whatever
the filter says of it (`filter_passes_to_one`).
-/

namespace RelationExpansion

namespace Store

variable {store : Store} {set : ExpansionSet} {stack : List String} {relation target : String}
  {definition : RelationDef} {selection : Selection} {entry : Uuid × Record}
  {root grown before parent inner : Document}

/-- A document in the slot of a relation that the set asks for, at a document that was reached. -/
structure AttachedAt (store : Store) (set : ExpansionSet) (root populated : Document)
    (stack : List String) (relation : String) (definition : RelationDef) (selection : Selection)
    (parent inner : Document) : Prop where
  reached : ∃ before, store.Reached set root populated stack before parent
  defined : store.relation? parent.kind relation = some definition
  asked : set.child? stack relation = some selection
  held : ∃ slot, Assoc.get? relation parent.relations = some slot ∧ .document inner ∈ slot.items

/-- The record that an attached document stands for, and what the filter says of it. -/
structure StandsFor (store : Store) (relation : String) (definition : RelationDef)
    (selection : Selection) (parent inner : Document) (record : Record) : Prop where
  stored : store.record? definition.target inner.id = some record
  kind : inner.kind = definition.target
  attributes : inner.attributes = (Document.ofRecord definition.target inner.id record).attributes
  filtered : definition.cardinality = .many → ∀ filter, selection.filter = some filter →
    record.matchesFilter filter = true
  first : definition.cardinality = .one →
    (store.linkedRecords parent.kind parent.id relation definition.target).head? =
      some (inner.id, record)

/-- The document stands for a record that is linked, and which one that can be. -/
theorem AttachedAt.exists_entry (distinct : store.HasDistinctRelations)
    (attaches : store.attach set [] root = .ok grown)
    (attached : store.AttachedAt set root grown stack relation definition selection parent inner) :
    ∃ entry ∈ store.linkedRecords parent.kind parent.id relation definition.target,
      store.attached set (stack ++ [relation]) definition.target entry.1 entry.2 = .ok inner ∧
      (definition.cardinality = .many → selection.admits entry.2 = true) ∧
      (definition.cardinality = .one →
        (store.linkedRecords parent.kind parent.id relation definition.target).head? =
          some entry) := by
  obtain ⟨⟨before, reached⟩, defined, asked, slot, held, mem⟩ := attached
  have parented := reached.attach_eq_ok distinct attaches
  rw [kind_attach parented] at defined ⊢
  rw [id_attach parented]
  obtain ⟨other, made, here⟩ := slot_attach_requested parented distinct defined asked
  cases held.symm.trans here
  obtain ⟨entry, linked, document, child, same, filtered, first⟩ :=
    mem_items_populatedSlot made mem
  cases same
  exact ⟨entry, linked, child, filtered, first⟩

/-- What is attached to a to-many relation matches the filter of its path, at every depth.  What is
attached to a to-one relation is the first linked record. -/
theorem populate_filters_exact (store : Store) (distinct : store.HasDistinctRelations)
    (roots populated : List Document) (set : ExpansionSet)
    (succeeded : store.populate roots set = .ok populated) :
    List.Forall₂ (fun root grown => ∀ stack relation definition selection parent inner,
      store.AttachedAt set root grown stack relation definition selection parent inner →
        ∃ record, store.StandsFor relation definition selection parent inner record)
      roots populated := by
  refine (populate_eq_ok_iff.1 succeeded).2.imp ?_
  intro root grown attaches stack relation definition selection parent inner attached
  obtain ⟨⟨id, record⟩, linked, child, admitted, first⟩ := attached.exists_entry distinct attaches
  obtain rfl : inner.id = id := id_attached child
  refine ⟨record, (mem_linkedRecords_iff.1 linked).2, kind_attached child,
    attributes_attached child, fun many filter same => ?_, first⟩
  simpa [Selection.admits, same] using admitted many

/-! ## An example -/

theorem populate_of_followed (attaches : store.attach set [] root = .ok grown)
    (followed : ∀ path ∈ set.keys, (store.follow? root.kind path.segments).isSome = true) :
    store.populate [root] set = .ok [grown] := by
  refine populate_eq_ok_iff.2 ⟨.inr fun document mem => ?_, .cons attaches .nil⟩
  rw [List.mem_singleton.1 mem]
  exact checkPaths_eq_ok_iff.2 followed

section Reached

variable (distinct : store.HasDistinctRelations) (attaches : store.attach set [] root = .ok grown)
  (reached : store.Reached set root grown stack before parent)
  (asked : set.child? stack relation = some selection)

include distinct attaches reached asked

/-- What the page of a to-many relation shows is attached there. -/
theorem Reached.attachedAt_many {page : List (Uuid × Record)} {total : Nat}
    (defined : store.relation? before.kind relation = some ⟨target, .many⟩)
    (selects : selection.select (store.linkedRecords before.kind before.id relation target) =
      .ok (page, total)) (mem : entry ∈ page) :
    ∃ inner, inner.kind = target ∧ inner.id = entry.1 ∧
      store.AttachedAt set root grown stack relation ⟨target, .many⟩ selection parent inner := by
  have parented := reached.attach_eq_ok distinct attaches
  obtain ⟨slot, inner, held, shown, child⟩ :=
    exists_child_many parented distinct defined asked selects mem
  exact ⟨inner, kind_attached child, id_attached child, ⟨before, reached⟩,
    (kind_attach parented).symm ▸ defined, asked, slot, held, shown⟩

theorem Reached.attachedAt_one
    (defined : store.relation? before.kind relation = some ⟨target, .one⟩)
    (first : (store.linkedRecords before.kind before.id relation target).head? = some entry) :
    ∃ inner, inner.kind = target ∧ inner.id = entry.1 ∧
      store.AttachedAt set root grown stack relation ⟨target, .one⟩ selection parent inner := by
  have parented := reached.attach_eq_ok distinct attaches
  obtain ⟨slot, inner, held, shown, child⟩ :=
    exists_child_one parented distinct defined asked first
  exact ⟨inner, kind_attached child, id_attached child, ⟨before, reached⟩,
    (kind_attach parented).symm ▸ defined, asked, slot, held, shown⟩

end Reached

theorem AttachedAt.reached_inner {loaded : Document}
    (attached : store.AttachedAt set root grown stack relation definition selection parent inner)
    (found : store.find? definition.target inner.id = some loaded) :
    store.Reached set root grown (stack ++ [relation]) loaded inner := by
  obtain ⟨⟨before, reached⟩, defined, asked, slot, held, mem⟩ := attached
  exact .child reached defined (Option.isSome_of_eq_some asked) held mem found

/-- The one article of the blog. -/
def hello : Document :=
  blog.document "articles" (Uuid.ofRandom 3)
    (stamp (Uuid.ofRandom 3) "2024-01-03T00:00:00Z" [("title", .string "Hello")])

def named (name : String) : Selection :=
  { limit := 5, filter := some (.object [("name", .string name)]) }

def titled (title : String) : Selection :=
  { limit := 5, filter := some (.object [("title", .string title)]) }

/-- The tags of the article that have one name, and their articles that have one title: the article
itself is attached again, two levels down. -/
theorem populate_filters_exact_blog :
    let set : ExpansionSet := OrderedMap.ofList [(⟨"tags"⟩, named "rust"),
      (⟨"tags.articles"⟩, titled "Hello"), (⟨"tags.articles.author"⟩, named "Bob")]
    blog.HasDistinctRelations ∧ ∃ grown tag inner record,
      blog.populate [hello] set = .ok [grown] ∧ tag.id = Uuid.ofRandom 1 ∧
      blog.AttachedAt set hello grown ["tags"] "articles" ⟨"articles", .many⟩ (titled "Hello") tag
        inner ∧
      blog.StandsFor "articles" ⟨"articles", .many⟩ (titled "Hello") tag inner record := by
  intro set
  have distinct : blog.HasDistinctRelations := hasDistinctRelations_run blogCommands
  obtain ⟨grown, attaches⟩ := exists_attach_of_short blogCommands (by decide) set hello
  have succeeded : blog.populate [hello] set = .ok [grown] :=
    populate_of_followed attaches (by decide)
  let rust := stamp (Uuid.ofRandom 1) "2024-01-01T00:00:00Z" [("name", .string "rust")]
  have selects : (named "rust").select (blog.linkedRecords "articles" (Uuid.ofRandom 3) "tags"
      "tags") = .ok ([(Uuid.ofRandom 1, rust)], 1) := rfl
  obtain ⟨tag, -, id, tagged⟩ := Reached.root.attachedAt_many distinct attaches rfl rfl selects
    (List.mem_singleton_self _)
  have found : blog.find? "tags" tag.id = some (blog.document "tags" (Uuid.ofRandom 1) rust) := by
    rw [id]
    rfl
  let article := stamp (Uuid.ofRandom 3) "2024-01-03T00:00:00Z" [("title", .string "Hello")]
  have selects' : (titled "Hello").select (blog.linkedRecords "tags" (Uuid.ofRandom 1) "articles"
      "articles") = .ok ([(Uuid.ofRandom 3, article)], 1) := rfl
  obtain ⟨inner, -, -, again⟩ := (tagged.reached_inner found).attachedAt_many distinct attaches rfl
    rfl selects' (List.mem_singleton_self _)
  have exact := populate_filters_exact blog distinct [hello] _ set succeeded
  obtain ⟨record, stands⟩ := (List.forall₂_cons.1 exact).1 _ _ _ _ _ _ again
  exact ⟨distinct, grown, tag, inner, record, succeeded, id, again, stands⟩

/-- The author of the article is not called Bob. -/
theorem filter_passes_to_one :
    let set : ExpansionSet := OrderedMap.ofList [(⟨"author"⟩, named "Bob")]
    blog.find? "articles" (Uuid.ofRandom 3) = some hello ∧
    ∃ grown inner record filter, blog.populate [hello] set = .ok [grown] ∧
      blog.AttachedAt set hello grown [] "author" ⟨"authors", .one⟩ (named "Bob") grown inner ∧
      (named "Bob").filter = some filter ∧ blog.record? "authors" inner.id = some record ∧
      record.matchesFilter filter = false := by
  intro set
  have distinct : blog.HasDistinctRelations := hasDistinctRelations_run blogCommands
  obtain ⟨grown, attaches⟩ := exists_attach_of_short blogCommands (by decide) set hello
  let ada := stamp (Uuid.ofRandom 4) "2024-01-04T00:00:00Z" [("name", .string "Ada")]
  have first : (blog.linkedRecords "articles" (Uuid.ofRandom 3) "author" "authors").head? =
      some (Uuid.ofRandom 4, ada) := rfl
  obtain ⟨inner, -, id, attached⟩ := Reached.root.attachedAt_one distinct attaches rfl rfl first
  refine ⟨rfl, grown, inner, ada, _, populate_of_followed attaches (by decide), attached, rfl, ?_,
    by decide⟩
  rw [id]
  rfl

end Store

end RelationExpansion
