import RelationExpansion.Projection.Node
import RelationExpansion.Proofs.Store.Arranging
import RelationExpansion.Proofs.Store.Runs

/-! # Listing page by page

The pages of a listing are windows of one list, the records that match, sorted.  Windows of one size
that lie side by side, as many as the paginator reports, make up the whole list (`flatMap_windows`).

Every page sorts the whole list, so all pages are listed or none is.  None is, for instance, where a
text stands among enough numbers (`mixed_ranks_are_not_listed`).
-/

namespace RelationExpansion

/-! ## Counting pages -/

namespace Count

variable {total size number : Nat}

theorem ceilDiv_le_iff (positive : 1 ≤ size) :
    ceilDiv total size ≤ number ↔ total ≤ size * number := by
  rw [ceilDiv, Nat.div_le_iff_le_mul positive, Nat.mul_comm]
  omega

theorem lt_ceilDiv_iff (positive : 1 ≤ size) :
    number < ceilDiv total size ↔ size * number < total := by
  rw [← Nat.not_le, ceilDiv_le_iff positive, Nat.not_le]

end Count

/-! ## Windows of a list -/

section Windows

variable {α : Type u} {size : Nat}

theorem flatMap_windows_eq_take (items : List α) (count : Nat) :
    (List.range count).flatMap (fun number => (items.drop (size * number)).take size) =
      items.take (size * count) := by
  induction count with
  | zero => simp
  | succ count ih =>
    rw [List.range_succ, List.flatMap_append, ih, Nat.mul_succ, List.take_add]
    simp

theorem flatMap_windows (positive : 1 ≤ size) (items : List α) :
    (List.range (Count.ceilDiv items.length size)).flatMap
        (fun number => (items.drop (size * number)).take size) = items := by
  rw [flatMap_windows_eq_take]
  exact List.take_of_length_le ((Count.ceilDiv_le_iff positive).1 (Nat.le_refl _))

end Windows

/-! ## Pages -/

namespace Selection

/-- The selection of one page, counted from one. -/
def onPage (selection : Selection) (number : Nat) : Selection :=
  { selection with skip := selection.limit * (number - 1) }

end Selection

namespace Store

def listPage (store : Store) (kind : String) (selection : Selection) (number : Nat) :
    Except Disorder (List Document × Nat) :=
  store.list kind (selection.onPage number)

/-- What the pages of a listing show, each for itself and all together, where a paginator reports so
many pages for the records that are listed. -/
structure ListsInPages (store : Store) (kind : String) (selection : Selection)
    (pages : Nat → List Document) (listed : List (Uuid × Record)) (count : Nat) : Prop where
  shown : ∀ number, store.listPage kind selection number = .ok (pages number, listed.length)
  counted : count = Count.ceilDiv listed.length selection.limit
  reported : ∀ number, number ≤ Count.largest → ∃ paginator,
    Paginator.ofSelection listed.length (selection.onPage number) = .ok paginator ∧
      paginator.totalEntries = listed.length ∧ paginator.totalPages = count ∧
      paginator.page = max number 1
  together : (List.range count).flatMap (fun earlier => pages (earlier + 1)) =
    listed.map fun entry => store.document kind entry.1 entry.2
  arranged : selection.Arranges (store.records kind) listed
  once : (Assoc.keys listed).Nodup
  full : ∀ number, 1 ≤ number → number < count → (pages number).length = selection.limit
  last : 1 ≤ count → 1 ≤ (pages count).length ∧ (pages count).length ≤ selection.limit
  beyond : ∀ number, count < number → pages number = []

variable {store : Store} {kind : String} {selection : Selection}
  {listed : List (Uuid × Record)}

/-- The documents on one page of the records that are listed. -/
def pageOf (store : Store) (kind : String) (selection : Selection) (listed : List (Uuid × Record))
    (number : Nat) : List Document :=
  ((listed.drop (selection.limit * (number - 1))).take selection.limit).map
    fun entry => store.document kind entry.1 entry.2

theorem listPage_eq (number : Nat) : store.listPage kind selection number =
    (selection.arrange (store.records kind)).map fun listed =>
      (store.pageOf kind selection listed number, listed.length) := by
  have same : (selection.onPage number).arrange = selection.arrange := rfl
  rw [listPage, list, Selection.select, same]
  cases selection.arrange (store.records kind) <;> rfl

theorem length_pageOf (number : Nat) : (store.pageOf kind selection listed number).length =
    min selection.limit (listed.length - selection.limit * (number - 1)) := by
  rw [pageOf, List.length_map, List.length_take, List.length_drop]

theorem listsInPages_of_arrange (positive : 1 ≤ selection.limit) (distinct : store.HasDistinctIds)
    (arranges : selection.arrange (store.records kind) = .ok listed) :
    store.ListsInPages kind selection (store.pageOf kind selection listed) listed
      (Count.ceilDiv listed.length selection.limit) where
  shown number := by
    rw [listPage_eq, arranges]
    rfl
  counted := rfl
  reported number fits := by
    have perPage : (selection.onPage number).perPage = selection.limit := Nat.max_eq_left positive
    have place : (selection.onPage number).skip / selection.limit + 1 = max number 1 := by
      rw [show (selection.onPage number).skip = selection.limit * (number - 1) from rfl,
        Nat.mul_div_cancel_left _ positive]
      omega
    have small : max number 1 ≤ Count.largest := Nat.max_le.2 ⟨fits, by decide⟩
    have page : (selection.onPage number).page = .ok (max number 1) := by
      rw [Selection.page, perPage]
      exact Count.add_eq_ok_iff.2 ⟨place ▸ small, place.symm⟩
    refine ⟨_, by rw [Paginator.ofSelection, page]; rfl, rfl, ?_, rfl⟩
    simp only [perPage]
  together := by
    simp only [pageOf, Nat.add_sub_cancel, ← List.map_flatMap]
    congr 1
    exact flatMap_windows positive _
  arranged := Selection.arranges_of_arrange arranges
  once := Selection.nodup_keys_of_arrange (distinct kind) arranges
  full number first before := by
    obtain ⟨earlier, rfl⟩ := Nat.exists_eq_add_of_le' first
    have reached := (Count.lt_ceilDiv_iff positive).1 before
    rw [Nat.mul_succ] at reached
    rw [length_pageOf, Nat.add_sub_cancel]
    omega
  last some := by
    -- The page before the last one ends before the last record.
    have reached := (Count.lt_ceilDiv_iff positive).1 (Nat.sub_one_lt_of_lt some)
    rw [length_pageOf]
    omega
  beyond number after := by
    have passed : listed.length ≤ selection.limit * (number - 1) :=
      (Count.ceilDiv_le_iff positive).1 (Nat.le_sub_one_of_lt after)
    rw [← List.length_eq_zero_iff, length_pageOf]
    omega

/-- If one page is listed all are: so many as are reported show every record that matches once, and
in the order of the sort.  All of them are full, except perhaps the last, and there is nothing
beyond.  They are listed unless the sort is given more than twenty records that mix types. -/
theorem listsInPages (store : Store) (kind : String) (selection : Selection)
    (positive : 1 ≤ selection.limit) (distinct : store.HasDistinctIds) :
    ((∃ number page, store.listPage kind selection number = .ok page) →
      ∃ pages listed count, store.ListsInPages kind selection pages listed count) ∧
    (selection.SortsSafely (selection.matching (store.records kind)) →
      ∃ pages listed count, store.ListsInPages kind selection pages listed count) := by
  constructor
  · rintro ⟨number, page, shown⟩
    rw [listPage_eq] at shown
    obtain ⟨listed, arranges, -⟩ := map_eq_ok_iff.1 shown
    exact ⟨_, _, _, listsInPages_of_arrange positive distinct arranges⟩
  · intro safe
    obtain ⟨listed, arranges⟩ := Selection.exists_arrange safe
    exact ⟨_, _, _, listsInPages_of_arrange positive distinct arranges⟩

def threeTags : Store := empty.run [
  .create (Uuid.ofRandom 1) "2024-01-01T00:00:00Z" "tags" [("name", .string "c")],
  .create (Uuid.ofRandom 2) "2024-01-02T00:00:00Z" "tags" [("name", .string "a")],
  .create (Uuid.ofRandom 3) "2024-01-03T00:00:00Z" "tags" [("name", .string "b")]]

theorem listsInPages_threeTags :
    let selection : Selection := { limit := 2, sort := some (SortSpec.ofText "name|desc") }
    1 ≤ selection.limit ∧ threeTags.HasDistinctIds ∧
      ∃ pages listed, threeTags.ListsInPages "tags" selection pages listed 2 ∧
        (pages 1).map Document.id = [Uuid.ofRandom 1, Uuid.ofRandom 3] ∧
        (pages 2).map Document.id = [Uuid.ofRandom 2] := by
  intro selection
  have distinct : threeTags.HasDistinctIds :=
    (reaches_run empty _).hasDistinctIds hasDistinctIds_empty
  obtain ⟨pages, listed, count, lists⟩ :=
    (listsInPages threeTags "tags" selection (by decide) distinct).2 (.inr (by decide))
  have first : (threeTags.listPage "tags" selection 1).map (fun page =>
      (page.1.map Document.id, page.2)) = .ok ([Uuid.ofRandom 1, Uuid.ofRandom 3], 3) := rfl
  have second : (threeTags.listPage "tags" selection 2).map (fun page =>
      (page.1.map Document.id, page.2)) = .ok ([Uuid.ofRandom 2], 3) := rfl
  rw [lists.shown] at first second
  obtain ⟨ids, size : listed.length = 3⟩ := Prod.mk.inj (Except.ok.inj first)
  obtain ⟨ids', -⟩ := Prod.mk.inj (Except.ok.inj second)
  have counted := lists.counted
  rw [size] at counted
  obtain rfl : count = 2 := counted.trans (show Count.ceilDiv 3 2 = 2 by decide)
  exact ⟨by decide, distinct, pages, listed, lists, ids, ids'⟩

/-- Records with so many numbers, all in descending order but for a text in the second place. -/
def mixedRanks : Store :=
  empty.run <| (List.range 21).map fun place : Nat =>
    let rank : Json := if place = 1 then .string "x" else .number (.int (21 - place))
    .create (Uuid.ofRandom (place + 1)) "2024-01-01T00:00:00Z" "items" [("rank", rank)]

/-- The text is neither before nor after any number, and so the numbers on either side of it are
sorted apart. -/
theorem mixed_ranks_are_not_listed :
    let selection : Selection := { limit := 5, sort := some (SortSpec.ofText "rank") }
    1 ≤ selection.limit ∧ mixedRanks.HasDistinctIds ∧ mixedRanks.count "items" = 21 ∧
      ∀ number, mixedRanks.listPage "items" selection number =
        .error .inconsistentComparison := by
  intro selection
  have distinct : mixedRanks.HasDistinctIds :=
    (reaches_run empty _).hasDistinctIds hasDistinctIds_empty
  have unsorted : (selection.arrange (mixedRanks.records "items")).toOption = none := by
    decide +kernel
  refine ⟨by decide, distinct, by decide, fun number => ?_⟩
  rw [listPage_eq]
  cases arranged : selection.arrange (mixedRanks.records "items") with
  | error disorder => rfl
  | ok listed =>
    rw [arranged] at unsorted
    cases unsorted

end Store

end RelationExpansion
