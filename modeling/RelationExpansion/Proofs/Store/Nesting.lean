import RelationExpansion.Proofs.Store.Populating

/-! # How deep documents are attached

Links may run in circles, so nothing in a store makes attaching come to an end.  What does is the
set: every step of the way has to be asked for, and a path that asks for it has at least as many
segments as there are steps, dots in names only adding to them.

`attachWithin` attaches with a budget of nested calls and no other bound.  A budget of one call more
than the deepest path is never used up (`attachWithin_eq`), and documents are attached along paths
of the set only (`attach_ends`).
-/

namespace RelationExpansion

namespace Store

variable {store : Store} {set : ExpansionSet} {stack : List String}

/-! ## A budget of calls -/

/-- What comes to an end within a budget, be it with a result or with a sort that breaks off. -/
def ended {α : Type} (outcome : Except Disorder α) : ExceptT Disorder Option α :=
  .mk (some outcome)

/-- The slot of a requested relation, where a linked record need not become a document. -/
def populatedSlotWithin (definition : RelationDef) (selection : Selection)
    (candidates : List (Uuid × Record))
    (child? : Uuid → Record → ExceptT Disorder Option Document) : ExceptT Disorder Option Slot :=
  match definition.cardinality with
  | .many => do
    let (page, total) ← ended (selection.select candidates)
    let documents ← page.mapM fun entry => child? entry.1 entry.2
    pure (.many (documents.map Item.document) (some total))
  | .one =>
    match candidates with
    | [] => pure .vacant
    | first :: _ => do
      let document ← child? first.1 first.2
      pure (.one (.document document))

/-- Populates the requested relations of a document with at most so many calls inside each other;
there is no outcome if more are needed. -/
def attachWithin (store : Store) (set : ExpansionSet) :
    Nat → List String → Document → ExceptT Disorder Option Document
  | 0, _, _ => .mk none
  | budget + 1, stack, document =>
    (store.relations document.kind).foldlM
      (fun populated entry =>
        match set.child? stack entry.1 with
        | none => pure populated
        | some selection => do
          let candidates := store.linkedRecords document.kind document.id entry.1 entry.2.target
          let slot ← populatedSlotWithin entry.2 selection candidates fun id record =>
            attachWithin store set budget (stack ++ [entry.1])
              (store.document entry.2.target id record)
          pure (populated.withSlot entry.1 slot))
      document

section Ended

variable {α β : Type}

theorem ended_bind (outcome : Except Disorder α) (next : α → Except Disorder β) :
    ended outcome >>= (fun value => ended (next value)) = ended (outcome >>= next) := by
  cases outcome <;> rfl

theorem mapM_ended (f : α → Except Disorder β) (items : List α) :
    (items.mapM fun item => ended (f item)) = ended (items.mapM f) := by
  induction items with
  | nil => rfl
  | cons item rest ih =>
    rw [List.mapM_cons, List.mapM_cons, ih, ← ended_bind]
    congr
    funext first
    exact ended_bind _ _

theorem foldlM_ended (step : β → α → Except Disorder β) (items : List α) (start : β) :
    items.foldlM (fun state item => ended (step state item)) start =
      ended (items.foldlM step start) := by
  induction items generalizing start with
  | nil => rfl
  | cons item rest ih =>
    rw [List.foldlM_cons, List.foldlM_cons, ← ended_bind]
    exact congrArg _ (funext ih)

end Ended

theorem populatedSlotWithin_eq (definition : RelationDef) (selection : Selection)
    (candidates : List (Uuid × Record)) (child : Uuid → Record → Except Disorder Document) :
    populatedSlotWithin definition selection candidates
        (fun id record => ended (child id record)) =
      ended (populatedSlot definition selection candidates child) := by
  obtain ⟨target, cardinality⟩ := definition
  cases cardinality with
  | many =>
    simp only [populatedSlotWithin, populatedSlot, mapM_ended, ← ended_bind]
    rfl
  | one =>
    cases candidates with
    | nil => rfl
    | cons first rest =>
      simp only [populatedSlotWithin, populatedSlot]
      cases child first.1 first.2 <;> rfl

/-- Every call goes one relation deeper and is made for a path of the set only. -/
theorem attachWithin_eq {budget : Nat} (enough : set.maxDepth - stack.length < budget)
    (document : Document) :
    store.attachWithin set budget stack document = ended (store.attach set stack document) := by
  induction budget generalizing stack document with
  | zero => omega
  | succ budget ih =>
    rw [attachWithin, attach_eq_foldlM, ← foldlM_ended]
    congr 1
    funext populated entry
    rw [requestedSlot]
    cases asked : set.child? stack entry.1 with
    | none => rfl
    | some selection =>
      have short := ExpansionSet.length_lt_maxDepth asked
      have called : ∀ id record,
          store.attachWithin set budget (stack ++ [entry.1])
              (store.document entry.2.target id record) =
            ended (store.attached set (stack ++ [entry.1]) entry.2.target id record) := by
        intro id record
        apply ih
        simp only [List.length_append, List.length_singleton]
        omega
      simp only [called, populatedSlotWithin_eq, Option.map_some, Option.getD_some]
      cases populatedSlot entry.2 selection _ _ <;> rfl

/-! ## Documents inside documents -/

/-- The documents inside a document, under the names of the relations that lead to them. -/
inductive Holds : Document → List String → Document → Prop where
  | itself (document : Document) : Holds document [] document
  | inside {document child inner : Document} {relation : String} {slot : Slot}
      {names : List String} :
      Assoc.get? relation document.relations = some slot → .document child ∈ slot.items →
      Holds child names inner → Holds document (relation :: names) inner

/-- The set asks for every relation on a way that starts below the stack. -/
def AsksFor (set : ExpansionSet) (stack names : List String) : Prop :=
  ∀ front, front ≠ [] → front <+: names → Path.ofSegments (stack ++ front) ∈ set.keys

variable {document inner : Document} {names : List String} {relation : String}
  {selection : Selection} {slot : Slot}

theorem asksFor_nil : AsksFor set stack [] :=
  fun _ nonempty short => absurd (List.prefix_nil.1 short) nonempty

theorem AsksFor.cons (asked : set.child? stack relation = some selection)
    (asks : AsksFor set (stack ++ [relation]) names) : AsksFor set stack (relation :: names) := by
  intro front nonempty short
  obtain ⟨first, rest, rfl⟩ := List.exists_cons_of_ne_nil nonempty
  obtain ⟨rfl, inner⟩ := List.cons_prefix_cons.1 short
  cases rest with
  | nil =>
    have known : set.contains (Path.ofSegments (stack ++ [first])) = true :=
      Option.isSome_of_eq_some asked
    exact OrderedMap.contains_iff_mem_keys.1 known
  | cons next others =>
    have deeper := asks (next :: others) (by simp) inner
    rwa [List.append_assoc] at deeper

theorem AsksFor.length_le (asks : AsksFor set stack names) :
    names.length ≤ set.maxDepth - stack.length := by
  cases names with
  | nil => exact Nat.zero_le _
  | cons first rest =>
    have last := asks (first :: rest) (by simp) (List.prefix_refl _)
    have shallow := ExpansionSet.depth_le_maxDepth last
    have long := Path.length_le_depth_ofSegments (stack ++ first :: rest)
    rw [List.length_append] at long
    omega

/-! ## Documents that have been attached -/

theorem not_mem_items_referenceSlot (kind : String) (id : Uuid) (definition : RelationDef) :
    Item.document inner ∉ (store.referenceSlot kind id relation definition).items := by
  obtain ⟨target, cardinality⟩ := definition
  cases cardinality with
  | many => simp [referenceSlot, Slot.items, Item.ofId]
  | one => cases linked : store.links ⟨kind, id, relation⟩ <;>
      simp [referenceSlot, linked, Slot.items, Item.ofId]

/-- A document as the store has it holds references only. -/
theorem not_mem_items_document {kind : String} {id : Uuid} {record : Record}
    (found : Assoc.get? relation (store.document kind id record).relations = some slot) :
    Item.document inner ∉ slot.items := by
  rw [document_eq] at found
  rcases Assoc.get?_putAll_cases found with mem | ⟨-, before⟩
  · obtain ⟨⟨name, definition⟩, -, same⟩ := List.mem_map.1 mem
    cases same
    exact not_mem_items_referenceSlot kind id definition
  · cases before

/-- Below a document of the store everything is attached, along paths of the set. -/
theorem asksFor_of_attached_holds {kind : String} {id : Uuid} {record : Record} {grown : Document}
    (made : store.attached set stack kind id record = .ok grown)
    (holds : Holds grown names inner) : AsksFor set stack names := by
  -- Along the way the stack grows, and the next document is again one as the store has it.
  induction names generalizing stack kind id record grown with
  | nil => exact asksFor_nil
  | cons relation rest ih =>
    cases holds with
    | inside found mem deeper =>
      rcases slot_attach_cases made found with written | ⟨-, kept⟩
      · obtain ⟨definition, selection, -, asked, filled⟩ := mem_writtenSlots_iff.1 written
        obtain ⟨entry, -, child, attached, same, -⟩ := mem_items_populatedSlot filled mem
        cases same
        exact .cons asked (ih attached deeper)
      · exact absurd mem (not_mem_items_document kept)

theorem attach_holds_cases {grown : Document}
    (attaches : store.attach set stack document = .ok grown)
    (holds : Holds grown names inner) :
    AsksFor set stack names ∨ ∃ relation rest, names = relation :: rest ∧
      store.Unrequested set stack document.kind relation ∧ Holds document names inner := by
  cases holds with
  | itself => exact .inl asksFor_nil
  | @inside _ child inner relation slot rest found mem deeper =>
    rcases slot_attach_cases attaches found with written | ⟨unrequested, kept⟩
    · obtain ⟨definition, selection, -, asked, filled⟩ := mem_writtenSlots_iff.1 written
      obtain ⟨entry, -, child, attached, same, -⟩ := mem_items_populatedSlot filled mem
      cases same
      exact .inl (.cons asked (asksFor_of_attached_holds attached deeper))
    · exact .inr ⟨relation, rest, rfl, unrequested, .inside kept mem deeper⟩

/-- Attaching needs no more nested calls than the set is deep, and one to begin with.  What it
attaches lies no deeper than the set; a relation that was not requested holds what it held. -/
theorem attach_ends (store : Store) (set : ExpansionSet) (stack : List String)
    (document : Document) :
    (∀ budget, set.maxDepth - stack.length < budget →
      (store.attachWithin set budget stack document).run =
        some (store.attach set stack document)) ∧
    ∀ grown, store.attach set stack document = .ok grown →
      (∀ names inner, Holds grown names inner →
        (AsksFor set stack names ∧ names.length ≤ set.maxDepth - stack.length) ∨
        ∃ relation rest, names = relation :: rest ∧
          store.Unrequested set stack document.kind relation ∧ Holds document names inner) ∧
      (∀ kind id record names inner, document = store.document kind id record →
        Holds grown names inner → names.length ≤ set.maxDepth - stack.length) := by
  refine ⟨fun budget enough => attachWithin_eq enough document, fun grown attaches => ⟨?_, ?_⟩⟩
  · intro names inner holds
    exact (attach_holds_cases attaches holds).imp_left fun asks => ⟨asks, asks.length_le⟩
  · rintro kind id record names inner rfl holds
    exact (asksFor_of_attached_holds attaches holds).length_le

/-! ## A ring of one record -/

/-- A page that leads to itself, by a relation with a dot in its name. -/
def ringCommands : List Command := [
  .define "pages" "next.page" ⟨"pages", .many⟩,
  .create (Uuid.ofRandom 1) "2024-01-01T00:00:00Z" "pages" [("title", .string "Start")],
  .link "pages" (Uuid.ofRandom 1) "next.page" (Uuid.ofRandom 1)]

def ring : Store := empty.run ringCommands

def ringRecord : Record :=
  stamp (Uuid.ofRandom 1) "2024-01-01T00:00:00Z" [("title", .string "Start")]

def ringPage : Document := ring.document "pages" (Uuid.ofRandom 1) ringRecord

/-- The page and the page after it. -/
def ringSet : ExpansionSet :=
  OrderedMap.ofList [(⟨"next.page"⟩, { limit := 5 }), (⟨"next.page.next.page"⟩, { limit := 5 })]

/-- The page holds itself two relations down, with a set that is four segments deep. -/
theorem attach_ends_ring : ∃ grown inner,
    ring.attach ringSet [] ringPage = .ok grown ∧
      Holds grown ["next.page", "next.page"] inner ∧
      ringSet.maxDepth = 4 ∧ ["next.page", "next.page"].length ≤ ringSet.maxDepth ∧
      (ring.attachWithin ringSet 5 [] ringPage).run = some (.ok grown) := by
  have distinct : ring.HasDistinctRelations := hasDistinctRelations_run _
  have deep : ringSet.maxDepth = 4 := by decide
  obtain ⟨grown, attaches⟩ := exists_attach_of_short ringCommands (by decide) ringSet ringPage
  obtain ⟨ends, within⟩ := attach_ends ring ringSet [] ringPage
  have selects : Selection.select { limit := 5 } (ring.linkedRecords "pages" (Uuid.ofRandom 1)
      "next.page" "pages") = .ok ([(Uuid.ofRandom 1, ringRecord)], 1) := rfl
  obtain ⟨slot, next, found, mem, made⟩ := exists_child_many attaches distinct rfl rfl selects
    (List.mem_singleton_self _)
  obtain ⟨slot', inner, found', mem', -⟩ := exists_child_many made distinct rfl rfl selects
    (List.mem_singleton_self _)
  have holds : Holds grown ["next.page", "next.page"] inner :=
    .inside found mem (.inside found' mem' (.itself inner))
  have short := (within grown attaches).2 "pages" (Uuid.ofRandom 1) ringRecord _ inner rfl holds
  have ended := ends 5 (by rw [deep]; decide)
  exact ⟨grown, inner, attaches, holds, deep, short, ended.trans (congrArg some attaches)⟩

/-- Two calls inside the first one are needed, and no more. -/
example : (ring.attachWithin ringSet 3 [] ringPage).run.isSome = true ∧
    (ring.attachWithin ringSet 2 [] ringPage).run.isNone = true := by decide

end Store

end RelationExpansion
