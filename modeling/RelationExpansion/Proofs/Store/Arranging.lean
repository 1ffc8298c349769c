import RelationExpansion.Proofs.Sorting.LongLists
import RelationExpansion.Proofs.Store.Ordering

/-! # What is selected

A selection arranges the records that match its filter, all of them and none else
(`perm_of_arrange`).  It may break off where it sorts more than twenty of them by a field that mixes
types, and nowhere else (`exists_arrange`).  Where no field mixes types the records are ordered, and
those that the sort holds equal stand as they stood before (`arranges_of_arrange`).
-/

namespace RelationExpansion

namespace Selection

open Record (MixesTypes compareBy)
open Sorting (sortBy within insertionLength)
open Std (TransCmp)

variable {selection : Selection} {records arranged page : List (Uuid × Record)} {spec : SortSpec}
  {total : Nat}

/-- Whether a record matches the filter, if there is one. -/
def admits (selection : Selection) (record : Record) : Bool :=
  match selection.filter with
  | some filter => record.matchesFilter filter
  | none => true

/-- The records that match the filter, in the order in which they came. -/
def matching (selection : Selection) (records : List (Uuid × Record)) : List (Uuid × Record) :=
  records.filter fun entry => selection.admits entry.2

theorem arrange_unsorted (unsorted : selection.sort = none) (records : List (Uuid × Record)) :
    selection.arrange records = .ok (selection.matching records) := by
  unfold arrange matching admits
  rw [unsorted]
  cases selection.filter with
  | none => exact congrArg Except.ok (List.filter_eq_self.2 fun _ _ => rfl).symm
  | some filter => rfl

theorem arrange_sorted (sorted : selection.sort = some spec) (records : List (Uuid × Record)) :
    selection.arrange records =
      sortBy (fun left right => compareBy spec.entries left.2 right.2)
        (selection.matching records) := by
  unfold arrange matching admits
  rw [sorted]
  cases selection.filter with
  | none => exact congrArg (sortBy _) (List.filter_eq_self.2 fun _ _ => rfl).symm
  | some filter => rfl

theorem perm_of_arrange (arranges : selection.arrange records = .ok arranged) :
    arranged.Perm (selection.matching records) := by
  cases sort : selection.sort with
  | none =>
    rw [arrange_unsorted sort] at arranges
    cases arranges
    exact .refl _
  | some spec =>
    rw [arrange_sorted sort] at arranges
    exact Sorting.perm_of_sortBy arranges

/-- Whether the records that match can be sorted. -/
def Arrangeable (selection : Selection) (records : List (Uuid × Record)) : Prop :=
  ∃ arranged, selection.arrange records = .ok arranged

/-! ## Sorted records -/

/-- Whether no field that the records are sorted by mixes types. -/
def SortsAlike (selection : Selection) (records : List (Uuid × Record)) : Prop :=
  ∀ spec, selection.sort = some spec → ∀ field ∈ spec.keys, ¬ MixesTypes field (records.map Prod.snd)

/-- What makes sure that records can be sorted: no field mixes types, or there are few of them. -/
def SortsSafely (selection : Selection) (records : List (Uuid × Record)) : Prop :=
  selection.SortsAlike records ∨ records.length ≤ insertionLength

theorem transCmp_of_sortsAlike (sorted : selection.sort = some spec)
    (alike : selection.SortsAlike records) :
    TransCmp (within (fun left right => compareBy spec.entries left.2 right.2) records) := by
  have ordered : TransCmp fun left right : {record // record ∈ records.map Prod.snd} =>
      compareBy spec.entries left.1 right.1 :=
    Record.transCmp_compareBy fun entry mem => alike spec sorted entry.1 (List.mem_map_of_mem mem)
  have among (entry : {entry // entry ∈ records}) : entry.1.2 ∈ records.map Prod.snd :=
    List.mem_map_of_mem entry.2
  exact {
    eq_swap := Record.orientedCmp_compareBy.eq_swap
    isLE_trans := fun {a b c} =>
      ordered.isLE_trans (a := ⟨_, among a⟩) (b := ⟨_, among b⟩) (c := ⟨_, among c⟩) }

theorem exists_arrange (safe : selection.SortsSafely (selection.matching records)) :
    selection.Arrangeable records := by
  cases sort : selection.sort with
  | none => exact ⟨_, arrange_unsorted sort records⟩
  | some spec =>
    rw [Arrangeable, arrange_sorted sort]
    rcases safe with alike | short
    · exact Sorting.exists_sortBy (transCmp_of_sortsAlike sort alike)
    · exact Sorting.exists_sortBy_of_short _ short

section Alike

variable (sorted : selection.sort = some spec)
  (alike : selection.SortsAlike (selection.matching records))
  (arranges : selection.arrange records = .ok arranged)

include sorted alike arranges

theorem pairwise_of_arrange : arranged.Pairwise fun earlier later =>
    (compareBy spec.entries earlier.2 later.2).isLE := by
  rw [arrange_sorted sorted] at arranges
  exact Sorting.pairwise_of_sortBy (transCmp_of_sortsAlike sorted alike) arranges

theorem filter_of_arrange {one : Uuid × Record} (mem : one ∈ selection.matching records) :
    arranged.filter (fun entry => compareBy spec.entries one.2 entry.2 = .eq) =
      (selection.matching records).filter
        fun entry => compareBy spec.entries one.2 entry.2 = .eq := by
  rw [arrange_sorted sorted] at arranges
  exact Sorting.filter_of_sortBy (transCmp_of_sortsAlike sorted alike) arranges mem

end Alike

/-- What a selection makes of some records: those that match, and if they are sorted and no field
mixes types, in the order of the sort, with those that it holds equal in the order in which they
came. -/
structure Arranges (selection : Selection) (records arranged : List (Uuid × Record)) : Prop where
  complete : arranged.Perm (selection.matching records)
  unsorted : selection.sort = none → arranged = selection.matching records
  ordered : selection.SortsAlike (selection.matching records) →
    ∀ spec, selection.sort = some spec → arranged.Pairwise
      fun earlier later => (compareBy spec.entries earlier.2 later.2).isLE
  stable : selection.SortsAlike (selection.matching records) →
    ∀ spec, selection.sort = some spec → ∀ one ∈ arranged,
      arranged.filter (fun entry => compareBy spec.entries one.2 entry.2 = .eq) =
        (selection.matching records).filter
          fun entry => compareBy spec.entries one.2 entry.2 = .eq

theorem arranges_of_arrange (arranges : selection.arrange records = .ok arranged) :
    selection.Arranges records arranged where
  complete := perm_of_arrange arranges
  unsorted none := by
    rw [arrange_unsorted none] at arranges
    cases arranges
    rfl
  ordered alike spec sorted := pairwise_of_arrange sorted alike arranges
  stable alike spec sorted one mem :=
    filter_of_arrange sorted alike arranges ((perm_of_arrange arranges).mem_iff.1 mem)

/-! ## Pages -/

/-- A page is a window of the records that are arranged. -/
theorem select_eq_ok_iff :
    selection.select records = .ok (page, total) ↔ ∃ arranged,
      selection.arrange records = .ok arranged ∧
        page = (arranged.drop selection.skip).take selection.limit ∧ total = arranged.length := by
  rw [select, map_eq_ok_iff]
  simp only [Prod.mk.injEq, eq_comm]

theorem nodup_keys_of_arrange (distinct : (Assoc.keys records).Nodup)
    (arranges : selection.arrange records = .ok arranged) : (Assoc.keys arranged).Nodup := by
  have kept : (Assoc.keys (selection.matching records)).Nodup :=
    (List.filter_sublist.map Prod.fst).nodup distinct
  exact ((perm_of_arrange arranges).map Prod.fst).nodup_iff.2 kept

theorem sublist_of_select (selects : selection.select records = .ok (page, total)) :
    ∃ arranged, selection.arrange records = .ok arranged ∧ page.Sublist arranged := by
  obtain ⟨arranged, arranges, rfl, -⟩ := select_eq_ok_iff.1 selects
  exact ⟨arranged, arranges, (List.take_sublist _ _).trans (List.drop_sublist _ _)⟩

/-- What is selected is there and matches. -/
theorem mem_of_mem_select {entry : Uuid × Record}
    (selects : selection.select records = .ok (page, total)) (mem : entry ∈ page) :
    entry ∈ records ∧ selection.admits entry.2 = true := by
  obtain ⟨arranged, arranges, within⟩ := sublist_of_select selects
  exact List.mem_filter.1 ((perm_of_arrange arranges).mem_iff.1 (within.subset mem))

end Selection

end RelationExpansion
