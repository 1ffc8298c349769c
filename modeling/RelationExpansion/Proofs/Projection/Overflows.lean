import RelationExpansion.Proofs.Expansion.AcceptedPaths
import RelationExpansion.Proofs.Expansion.Adjusting
import RelationExpansion.Proofs.Outcome
import RelationExpansion.Proofs.Projection.ExpandedNodes
import RelationExpansion.Proofs.Projection.PageWindows
import RelationExpansion.Proofs.Store.Listing

/-! # Which projections overflow

The end of a page window is the one sum of a projection that may not fit.  `Projector.Expands` says
which relations are expanded in a rendering, and a rendering fails exactly when the window of one of
them ends beyond the largest count (`projectEntity_eq_error_iff`).  Under a set of directives that
takes a later page of a whole collection, and a page size within the length of that collection of
the largest count (`build_overflow_exact`).
-/

namespace RelationExpansion

instance : Subsingleton Overflow := ⟨fun .countTooLarge .countTooLarge => rfl⟩

theorem exists_eq_ok_iff {α : Type} {outcome : Except Overflow α} :
    (∃ value, outcome = .ok value) ↔ outcome ≠ .error .countTooLarge := by
  cases outcome with
  | error error => simp [Subsingleton.elim error .countTooLarge]
  | ok value => simp

/-! ## What is expanded -/

/-- The items that an expanded relation shows. -/
def Related.shown (selection : Selection) : Related → List Entity
  | .many items total =>
    (items.drop (windowStart items.length (total.getD items.length) selection)).take selection.limit
  | .one item => [item]
  | .absent => []

/-- The relations that are expanded when an entity is rendered, with their selections: its own, and
those of the records that an expanded relation shows. -/
inductive Projector.Expands : Projector → Entity → Related → Selection → Prop where
  | own {projector : Projector} {identifier : Option String} {members : List (String × Json)}
      {relations : List (String × Related)} {relation : String} {related : Related}
      {selection : Selection} :
      Assoc.get? relation relations = some related →
      projector.selection? relation = some selection →
      Expands projector (.record identifier (.object members) relations) related selection
  | inside {projector : Projector} {identifier : Option String} {members : List (String × Json)}
      {relations : List (String × Related)} {relation : String} {related inner : Related}
      {selection below : Selection} {item : Entity} :
      Assoc.get? relation relations = some related →
      projector.selection? relation = some selection → item ∈ related.shown selection →
      Expands (projector.descend relation) item inner below →
      Expands projector (.record identifier (.object members) relations) inner below

/-- Whether the window of a relation ends beyond the largest count. -/
def Related.Overflows (selection : Selection) : Related → Prop
  | .many items total =>
    Count.largest <
      windowStart items.length (total.getD items.length) selection + selection.limit
  | _ => False

/-- Whether a relation cannot be shown: its window ends beyond the largest count, or the number of its
page lies there. -/
def Related.Fails (selection : Selection) (related : Related) : Prop :=
  related.Overflows selection ∨ selection.page = .error .countTooLarge

/-- Whether every selection of a set lies on a page with a number that fits. -/
def ExpansionSet.HasPages (set : ExpansionSet) : Prop :=
  ∀ path selection, set.get? path = some selection → ∃ page, selection.page = .ok page

/-! ## One level -/

section Level

variable {projector : Projector} {selection : Selection} {related : Related}

theorem pageWindow_eq_error {length total : Nat}
    (beyond : Count.largest < windowStart length total selection + selection.limit) :
    pageWindow length total selection = .error .countTooLarge := by
  have sum : Count.add (windowStart length total selection) selection.limit =
      .error .countTooLarge := if_neg (Nat.not_le.2 beyond)
  unfold windowStart at sum
  rw [pageWindow, sum]
  rfl

/-- A window that there is lies within the list, and its end fits. -/
theorem bounds_of_pageWindow {length total start take : Nat}
    (window : pageWindow length total selection = .ok (start, take)) :
    start + selection.limit ≤ Count.largest ∧ start + take ≤ length := by
  rcases Nat.lt_or_ge Count.largest (windowStart length total selection + selection.limit) with
    beyond | fits
  · rw [pageWindow_eq_error beyond] at window
    cases window
  · rw [pageWindow_eq fits] at window
    cases window
    refine ⟨fits, ?_⟩
    have inside : windowStart length total selection ≤ length := by
      unfold windowStart
      split <;> omega
    omega

theorem projectRelated_many_of_overflows {items : List Entity} {total : Option Nat}
    (beyond : (Related.many items total).Overflows selection) :
    projectRelated projector selection (.many items total) = .error .countTooLarge := by
  rw [projectRelated_many, windowOf, pageWindow_eq_error beyond]
  rfl

theorem projectRelated_many_of_fits {items : List Entity} {total : Option Nat}
    (fits : ¬ (Related.many items total).Overflows selection) :
    projectRelated projector selection (.many items total) =
      (((Related.many items total).shown selection).mapM (projectEntity projector)).map .array := by
  rw [projectRelated_many, windowOf_eq (Nat.not_lt.1 fits)]
  rfl

theorem projectRelated_eq_error_iff :
    projectRelated projector selection related = .error .countTooLarge ↔
      related.Overflows selection ∨
        ∃ item ∈ related.shown selection, projectEntity projector item = .error .countTooLarge := by
  cases related with
  | many items total =>
    by_cases beyond : (Related.many items total).Overflows selection
    · simp [projectRelated_many_of_overflows beyond, beyond]
    · rw [projectRelated_many_of_fits beyond, map_eq_error_iff, mapM_eq_error_iff]
      simp [beyond]
  | one item => simp [projectRelated, Related.Overflows, Related.shown]
  | absent => simp [projectRelated, Related.Overflows, Related.shown]

theorem ofSelection_eq_error_iff {total : Nat} :
    Paginator.ofSelection total selection = .error .countTooLarge ↔
      selection.page = .error .countTooLarge := by
  rw [Paginator.ofSelection, bind_eq_error_iff]
  simp [pure, Except.pure]

theorem relationNode_eq_error_iff {parent : Option String} {relation : String} :
    projector.relationNode parent relation related = .error .countTooLarge ↔
      ∃ selection, projector.selection? relation = some selection ∧
        (related.Fails selection ∨ ∃ item ∈ related.shown selection,
          projectEntity (projector.descend relation) item = .error .countTooLarge) := by
  rw [Projector.relationNode, Projector.node]
  cases asked : projector.selection? relation with
  | none => simp
  | some selection =>
    simp only [Option.some.injEq, exists_eq_left', Related.Fails]
    rw [or_right_comm, ← projectRelated_eq_error_iff]
    -- The page is numbered after its items are rendered, but there is only one error.
    cases projectRelated (projector.descend relation) selection related with
    | error error => simp [bind_eq_error_iff, Subsingleton.elim error .countTooLarge]
    | ok data => simp [bind_eq_error_iff, ofSelection_eq_error_iff]

theorem projectRelations_eq_error_iff {parent : Option String} {done : List String}
    {relations : List (String × Related)} :
    projectRelations projector parent done relations = .error .countTooLarge ↔
      ∃ relation related, relation ∉ done ∧ Assoc.get? relation relations = some related ∧
        projector.relationNode parent relation related = .error .countTooLarge := by
  induction relations generalizing done with
  | nil => simp [projectRelations, Assoc.get?]
  | cons entry rest ih =>
    obtain ⟨name, first⟩ := entry
    rw [projectRelations]
    by_cases seen : name ∈ done
    · -- A relation that has been seen is no longer looked up.
      rw [if_pos seen, ih]
      refine exists_congr fun relation => exists_congr fun related => and_congr_right fun fresh => ?_
      have other : name ≠ relation := fun same => fresh (same ▸ seen)
      simp [Assoc.get?, other]
    · rw [if_neg seen]
      have step : (projector.relationNode parent name first >>= fun node =>
            projectRelations projector parent (name :: done) rest >>= fun others =>
              Except.ok ((name, node.json) :: others)) = .error .countTooLarge ↔
          projector.relationNode parent name first = .error .countTooLarge ∨
            projectRelations projector parent (name :: done) rest = .error .countTooLarge := by
        cases projector.relationNode parent name first with
        | error error => simp [bind_eq_error_iff, Subsingleton.elim error .countTooLarge]
        | ok node => simp [bind_eq_error_iff]
      refine step.trans ?_
      rw [ih]
      constructor
      · rintro (failed | ⟨relation, related, fresh, found, failed⟩)
        · exact ⟨name, first, seen, by simp [Assoc.get?], failed⟩
        · rw [List.mem_cons, not_or] at fresh
          obtain ⟨other, absent⟩ := fresh
          exact ⟨relation, related, absent, by simp [Assoc.get?, Ne.symm other, found], failed⟩
      · rintro ⟨relation, related, fresh, found, failed⟩
        by_cases same : name = relation
        · subst same
          simp only [Assoc.get?, if_true, Option.some.injEq] at found
          exact .inl (found ▸ failed)
        · rw [Assoc.get?, if_neg same] at found
          exact .inr ⟨relation, related, by simp [Ne.symm same, fresh], found, failed⟩

/-- A record fails at one of its own windows, or at a record that one of them shows. -/
theorem projectEntity_record_eq_error_iff {identifier : Option String}
    {members : List (String × Json)} {relations : List (String × Related)} :
    projectEntity projector (.record identifier (.object members) relations) =
        .error .countTooLarge ↔
      ∃ relation related selection, Assoc.get? relation relations = some related ∧
        projector.selection? relation = some selection ∧
        (related.Fails selection ∨ ∃ item ∈ related.shown selection,
          projectEntity (projector.descend relation) item = .error .countTooLarge) := by
  rw [projectEntity]
  show (projectRelations projector identifier [] relations).map _ = _ ↔ _
  rw [map_eq_error_iff, projectRelations_eq_error_iff]
  simp only [relationNode_eq_error_iff, List.not_mem_nil, not_false_eq_true, true_and]
  constructor
  · rintro ⟨relation, related, found, selection, asked, failed⟩
    exact ⟨relation, related, selection, found, asked, failed⟩
  · rintro ⟨relation, related, selection, found, asked, failed⟩
    exact ⟨relation, related, found, selection, asked, failed⟩

end Level

/-! ## All levels -/

theorem sizeOf_lt_of_mem_shown {identifier : Option String} {wire : Json} {item : Entity}
    {relations : List (String × Related)} {relation : String} {related : Related}
    {selection : Selection} (found : Assoc.get? relation relations = some related)
    (mem : item ∈ related.shown selection) :
    sizeOf item < sizeOf (Entity.record identifier wire relations) := by
  have inside := List.sizeOf_lt_of_mem (Assoc.mem_of_get?_eq_some found)
  simp only [Prod.mk.sizeOf_spec] at inside
  cases related with
  | many items total =>
    have among := List.sizeOf_lt_of_mem (List.mem_of_mem_drop (List.mem_of_mem_take mem))
    simp only [Related.many.sizeOf_spec] at inside
    simp only [Entity.record.sizeOf_spec]
    omega
  | one other =>
    cases List.mem_singleton.1 mem
    simp only [Related.one.sizeOf_spec] at inside
    simp only [Entity.record.sizeOf_spec]
    omega
  | absent => cases mem

theorem Projector.Expands.fails {projector : Projector} {entity : Entity} {related : Related}
    {selection : Selection} (expands : projector.Expands entity related selection)
    (fails : related.Fails selection) : projectEntity projector entity = .error .countTooLarge := by
  induction expands with
  | own found asked =>
    exact projectEntity_record_eq_error_iff.2 ⟨_, _, _, found, asked, .inl fails⟩
  | inside found asked mem _ ih =>
    exact projectEntity_record_eq_error_iff.2 ⟨_, _, _, found, asked, .inr ⟨_, mem, ih fails⟩⟩

theorem exists_expands_of_fails {projector : Projector} :
    ∀ (entity : Entity), projectEntity projector entity = .error .countTooLarge →
      ∃ related selection, projector.Expands entity related selection ∧ related.Fails selection
  | .plain identifier wire, failed => by
    rw [projectEntity] at failed
    cases failed
  | .record identifier wire relations, failed => by
    cases wire with
    | object members =>
      obtain ⟨relation, related, selection, found, asked, fails | ⟨item, mem, below⟩⟩ :=
        projectEntity_record_eq_error_iff.1 failed
      · exact ⟨related, selection, .own found asked, fails⟩
      · obtain ⟨inner, last, expands, fails⟩ := exists_expands_of_fails item below
        exact ⟨inner, last, .inside found asked mem expands, fails⟩
    | _ =>
      rw [projectEntity] at failed
      · cases failed
      · simp
termination_by entity => sizeOf entity
decreasing_by exact sizeOf_lt_of_mem_shown ‹_› ‹_›

/-- There is a rendering unless some relation that is expanded in it cannot be shown. -/
theorem exists_projectEntity_iff {projector : Projector} {entity : Entity} :
    (∃ shown, projectEntity projector entity = .ok shown) ↔
      ∀ related selection, projector.Expands entity related selection →
        ¬ related.Fails selection := by
  rw [exists_eq_ok_iff]
  constructor
  · intro succeeds related selection expands fails
    exact succeeds (expands.fails fails)
  · intro fits failed
    obtain ⟨related, selection, expands, fails⟩ := exists_expands_of_fails entity failed
    exact fits related selection expands fails

theorem exists_projectAll_iff {projector : Projector} {entities : List Entity} :
    (∃ data, projectAll projector entities = .ok data) ↔
      ∀ entity ∈ entities, ∃ shown, projectEntity projector entity = .ok shown := by
  simp only [exists_eq_ok_iff, projectAll, ne_eq, map_eq_error_iff, mapM_eq_error_iff, not_exists,
    not_and]

namespace Projector

variable {projector : Projector} {entity : Entity} {related : Related} {selection : Selection}

theorem exists_get?_of_selection? (projector : Projector) {relation : String}
    (asked : projector.selection? relation = some selection) :
    ∃ path, projector.set.get? path = some selection := by
  unfold selection? at asked
  split at asked
  · exact ⟨_, asked⟩
  · cases asked

/-- What is expanded is asked for by the set, at whatever depth. -/
theorem Expands.exists_get? (expands : projector.Expands entity related selection) :
    ∃ path, projector.set.get? path = some selection := by
  induction expands with
  | own _ asked => exact exists_get?_of_selection? _ asked
  | inside _ _ _ _ ih =>
    obtain ⟨path, found⟩ := ih
    rw [descend, ExpansionSet.below, OrderedMap.get?_filterKeys] at found
    split at found
    · exact ⟨path, found⟩
    · cases found

end Projector

theorem projectEntity_eq_error_iff {projector : Projector} (pages : projector.set.HasPages)
    {entity : Entity} :
    projectEntity projector entity = .error .countTooLarge ↔
      ∃ related selection, projector.Expands entity related selection ∧
        related.Overflows selection := by
  constructor
  · intro failed
    obtain ⟨related, selection, expands, overflows | unnumbered⟩ :=
      exists_expands_of_fails entity failed
    · exact ⟨related, selection, expands, overflows⟩
    · obtain ⟨path, found⟩ := expands.exists_get?
      obtain ⟨page, numbered⟩ := pages path selection found
      cases numbered.symm.trans unnumbered
  · rintro ⟨related, selection, expands, overflows⟩
    exact expands.fails (.inl overflows)

/-! ## Envelopes -/

namespace RootResult

/-- The entities that a root shows. -/
def entities : RootResult → List Entity
  | .single entity => entity.toList
  | .collection entities _ _ => entities

/-- The selection by which a root collection is a page. -/
def selection? : RootResult → Option Selection
  | .single _ => none
  | .collection _ _ selection => selection

end RootResult

namespace ExpansionSet

variable {view : View} {limits : Limits} {texts : List String} {path : Path} {selection : Selection}

/-- A selection is what modifiers make of the standard one, and they were read from text. -/
theorem exists_modifiers_of_get? (found : (ofDirectives view limits texts).get? path =
    some selection) : ∃ modifiers, selection = Selection.ofModifiers limits modifiers ∧
      ∀ modifier ∈ modifiers, ∃ text, Modifier.ofText? text = some modifier := by
  rcases get?_ofDirectives_cases found with ⟨_, -, directive, accepts, rfl⟩ | rfl
  · refine ⟨directive.modifiers, rfl, fun modifier mem => ?_⟩
    obtain ⟨_, written, -, rfl⟩ := accepts.reads
    obtain ⟨text, -, read⟩ := List.mem_filterMap.1 mem
    exact ⟨text, read⟩
  · exact ⟨[], by simp [Selection.ofModifiers, Selection.standard, Count.mulSaturating], by simp⟩

theorem hasPages_ofDirectives (view : View) (limits : Limits) (texts : List String) :
    (ofDirectives view limits texts).HasPages := by
  intro path selection found
  obtain ⟨modifiers, rfl, read⟩ := exists_modifiers_of_get? found
  refine Selection.page_ofModifiers fun number mem => ?_
  obtain ⟨text, written⟩ := read _ mem
  exact Modifier.page_le_of_ofText? written

end ExpansionSet

namespace Envelope

variable {view : View} {limits : Limits} {texts : List String} {root : RootResult} {url : String}

/-- The projector for the roots of a request. -/
def projectorOf (view : View) (limits : Limits) (texts : List String) : Projector where
  set := ExpansionSet.ofDirectives view limits texts
  ceiling := some (view.depth - 1)
  schema := some view

theorem build_single (entity : Entity) :
    build (.single (some entity)) url (ExpansionSet.ofDirectives view limits texts) (some view) =
      (projectEntity (projectorOf view limits texts) entity).map fun data => ⟨url, none, data⟩ :=
  rfl

theorem build_collection (entities : List Entity) (total : Nat) (selection : Option Selection) :
    build (.collection entities total selection) url
        (ExpansionSet.ofDirectives view limits texts) (some view) = (do
      let data ← projectAll (projectorOf view limits texts) entities
      let paginator ← selection.mapM (Paginator.ofSelection total)
      pure ⟨url, paginator, data⟩) :=
  rfl

theorem build_eq_error_iff :
    build root url (ExpansionSet.ofDirectives view limits texts) (some view) =
        .error .countTooLarge ↔
      (∃ selection, root.selection? = some selection ∧ selection.page = .error .countTooLarge) ∨
        ∃ entity ∈ root.entities,
          projectEntity (projectorOf view limits texts) entity = .error .countTooLarge := by
  cases root with
  | single entity =>
    cases entity with
    | none => simp [build, RootResult.selection?, RootResult.entities, pure, Except.pure]
    | some entity =>
      rw [build_single, map_eq_error_iff]
      simp [RootResult.selection?, RootResult.entities]
  | collection entities total selection =>
    have projected : projectAll (projectorOf view limits texts) entities =
        .error .countTooLarge ↔ ∃ entity ∈ entities,
          projectEntity (projectorOf view limits texts) entity = .error .countTooLarge := by
      rw [projectAll, map_eq_error_iff, mapM_eq_error_iff]
    have paginated : selection.mapM (Paginator.ofSelection total) = .error .countTooLarge ↔
        ∃ own, selection = some own ∧ own.page = .error .countTooLarge := by
      cases selection with
      | none => simp [pure, Except.pure]
      | some own =>
        simp [Paginator.ofSelection, bind_eq_error_iff, Functor.map, map_eq_error_iff, pure,
          Except.pure]
    rw [build_collection, RootResult.selection?, RootResult.entities, ← projected, ← paginated]
    cases projectAll (projectorOf view limits texts) entities with
    | error error => simp [bind_eq_error_iff, Subsingleton.elim error .countTooLarge]
    | ok data => simp [bind_eq_error_iff, pure, Except.pure]

/-- A relation overflows when a later page of it is wanted, it has not been cut to that page yet, and
the page size is within the number of items left out of the largest count. -/
theorem overflows_iff {related : Related} {selection : Selection}
    (granted : selection.limit ≤ Count.largest) :
    related.Overflows selection ↔ ∃ items total, related = .many items total ∧
      total.getD items.length = items.length ∧ 1 ≤ selection.skip ∧
      Count.largest < min selection.skip items.length + selection.limit := by
  cases related with
  | many items total =>
    rw [Related.Overflows, windowStart]
    constructor
    · intro beyond
      split at beyond
      · rename_i whole
        exact ⟨items, total, rfl, whole.symm, by omega, beyond⟩
      · omega
    · rintro ⟨_, _, same, whole, -, beyond⟩
      cases same
      rwa [if_pos whole.symm]
  | one | absent => simp [Related.Overflows]

/-- When an envelope cannot be built, and what is in range whether it can or not. -/
theorem build_overflow_exact (view : View) (limits : Limits)
    (granted : limits.maxLimit ≤ Count.largest) (texts : List String) (root : RootResult)
    (url : String) :
    let projector := projectorOf view limits texts
    (build root url (ExpansionSet.ofDirectives view limits texts) (some view) =
        .error .countTooLarge ↔
      (∃ selection, root.selection? = some selection ∧ selection.page = .error .countTooLarge) ∨
        ∃ entity ∈ root.entities, ∃ items total selection,
          projector.Expands entity (.many items total) selection ∧
          total.getD items.length = items.length ∧ 1 ≤ selection.skip ∧
          Count.largest < min selection.skip items.length + selection.limit) ∧
    ∀ entity related selection, projector.Expands entity related selection →
      selection.limit ≤ max limits.maxLimit 1 ∧
      (∃ paginator, Paginator.ofSelection related.totalCount selection = .ok paginator ∧
        paginator.page ≤ Count.largest ∧ paginator.totalPages ≤ related.totalCount) ∧
      ∀ items total start take, related = .many items total →
        pageWindow items.length (total.getD items.length) selection = .ok (start, take) →
        start + selection.limit ≤ Count.largest ∧ start + take ≤ items.length := by
  intro projector
  have pages : projector.set.HasPages := ExpansionSet.hasPages_ofDirectives view limits texts
  have bounded : ∀ {entity related selection}, projector.Expands entity related selection →
      selection.limit ≤ max limits.maxLimit 1 := by
    intro entity related selection expands
    obtain ⟨path, found⟩ := expands.exists_get?
    obtain ⟨modifiers, rfl, -⟩ := ExpansionSet.exists_modifiers_of_get? found
    exact Selection.limit_ofModifiers_le
  have largest : max limits.maxLimit 1 ≤ Count.largest := Nat.max_le.2 ⟨granted, by decide⟩
  constructor
  · rw [build_eq_error_iff]
    refine or_congr_right (exists_congr fun entity => and_congr_right fun _ => ?_)
    rw [projectEntity_eq_error_iff pages]
    constructor
    · rintro ⟨related, selection, expands, overflows⟩
      have fits := Nat.le_trans (bounded expands) largest
      obtain ⟨items, total, rfl, beyond⟩ := (overflows_iff fits).1 overflows
      exact ⟨items, total, selection, expands, beyond⟩
    · rintro ⟨items, total, selection, expands, beyond⟩
      have fits := Nat.le_trans (bounded expands) largest
      exact ⟨_, selection, expands, (overflows_iff fits).2 ⟨items, total, rfl, beyond⟩⟩
  · intro entity related selection expands
    obtain ⟨path, found⟩ := expands.exists_get?
    obtain ⟨page, counted⟩ := pages path selection found
    refine ⟨bounded expands, ⟨_, by rw [Paginator.ofSelection, counted]; rfl, ?_, ?_⟩, ?_⟩
    · obtain ⟨fits, rfl⟩ := Count.add_eq_ok_iff.1 counted
      exact fits
    · have positive : 1 ≤ selection.perPage := Nat.le_max_right _ _
      exact (Count.ceilDiv_le_iff positive).2 (Nat.le_mul_of_pos_left _ positive)
    · rintro items total start take rfl window
      exact bounds_of_pageWindow window

/-- The one tag of an article is wanted on the second of two pages, and the pages are as large as
they can be. -/
theorem build_overflow_exact_second_page :
    let limits : Limits := { maxLimit := Count.largest }
    let texts := ["tags:per_page(18446744073709551615):page(2)"]
    limits.maxLimit ≤ Count.largest ∧
      (∃ items total selection,
        (projectorOf articleView limits texts).Expands article.entity (.many items total) selection ∧
        total.getD items.length = items.length ∧ 1 ≤ selection.skip ∧
        Count.largest < min selection.skip items.length + selection.limit) ∧
      build (.single (some article.entity)) "/articles/1"
        (ExpansionSet.ofDirectives articleView limits texts) (some articleView) =
          .error .countTooLarge := by
  intro limits texts
  have granted : limits.maxLimit ≤ Count.largest := Nat.le_refl _
  let tag : Document := ⟨"tags", Uuid.ofRandom 2, [], [("articles", .many [] none)]⟩
  have asked : ((projectorOf articleView limits texts).selection? "tags").map
      (fun selection => (selection.limit, selection.skip)) =
        some (Count.largest, Count.largest) := by decide +kernel
  obtain ⟨selection, requested, same⟩ := Option.map_eq_some_iff.1 asked
  obtain ⟨limit, skip⟩ := Prod.mk.inj same
  have expands : (projectorOf articleView limits texts).Expands article.entity
      (.many [tag.entity] none) selection := .own rfl requested
  have late : 1 ≤ selection.skip := by rw [skip]; decide
  have beyond : Count.largest < min selection.skip [tag.entity].length + selection.limit := by
    rw [skip, limit]
    decide
  refine ⟨granted, ⟨_, _, selection, expands, rfl, late, beyond⟩, ?_⟩
  exact (build_overflow_exact articleView limits granted texts _ _).1.2
    (.inr ⟨_, List.mem_singleton_self _, _, _, selection, expands, rfl, late, beyond⟩)

theorem no_envelope_for_second_page :
    let limits : Limits := { maxLimit := Count.largest }
    limits.defaultLimit ≤ Count.largest ∧ limits.maxLimit ≤ Count.largest ∧
      ¬ ∃ envelope, build (.single (some article.entity)) "/articles/1"
        (ExpansionSet.ofDirectives articleView limits
          ["tags:per_page(18446744073709551615):page(2)"]) (some articleView) = .ok envelope := by
  intro limits
  refine ⟨by decide, Nat.le_refl _, ?_⟩
  rintro ⟨envelope, built⟩
  have failed : (build (.single (some article.entity)) "/articles/1"
      (ExpansionSet.ofDirectives articleView limits
        ["tags:per_page(18446744073709551615):page(2)"]) (some articleView)).toOption.isNone =
          true := by decide +kernel
  rw [built] at failed
  cases failed

end Envelope

end RelationExpansion
